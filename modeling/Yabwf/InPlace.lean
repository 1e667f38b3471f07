import Yabwf.Lib.Compaction
import Yabwf.Clean
import Yabwf.Escapes

/-!
`unescape_uri` and `clean_pathname` as they run: two passes that compact `request_uri`
in place, the path in front of the query string.

* `unescapeStep`, `cleanStep`: one round of the loops of the two functions on a buffer.
* `Unescaping`, `Cleaning`: where a pass stands, in terms of the string functions
  `unescapeLoop` and `cleanLoop` of the rest of the string.
* `Unescaping.step`, `Cleaning.step`: a round keeps them; `exists_returned`,
  `exists_done`: the passes end.
* `queryMark`: the question mark that begins the query string.
* `query_survives`: the write cursors never overtake the read cursors, and the query
  string is left alone by both passes.
-/

namespace Yabwf

open Memory Compaction

/-! ### The two passes -/

/-- Where `unescape_uri` is: in its loop, in the loop that looks for a query string
behind a fragment, or back at its caller. -/
inductive UnescapePhase
  | path
  | fragment
  | returned (ok : Bool)

/-- The variables of `unescape_uri`: `uri` and `uri_old` are the cursors. -/
structure Unescape where
  cur : Cursors
  phase : UnescapePhase := .path
  query : Option ℕ := none

/-- One round of the loops of `unescape_uri`. -/
def unescapeStep (s : Unescape) : Unescape :=
  match s.phase with
  | .returned _ => s
  | .path =>
      let c := s.cur.peek 0
      if c = 0 then { s with cur := s.cur.cut, phase := .returned true }
      else if c = 37 then
        let c := s.cur.peek 1
        let d := s.cur.peek 2
        if c = 0 then { s with cur := (s.cur.skip 2).cut, phase := .returned false }
        else if d = 0 then { s with cur := (s.cur.skip 3).cut, phase := .returned false }
        else if charVal (hexToDecimal c d) < 32 ∨ 126 < charVal (hexToDecimal c d) then
          { s with cur := (s.cur.skip 3).cut, phase := .returned false }
        else { s with cur := s.cur.put (hexToDecimal c d) 3 }
      else if c = 63 then
        { cur := (s.cur.skip 1).cut, phase := .returned true, query := some (s.cur.read + 1) }
      else if c = 35 then { s with cur := s.cur.skip 1, phase := .fragment }
      else { s with cur := s.cur.put c 1 }
  | .fragment =>
      let c := s.cur.peek 0
      if c = 0 then { s with cur := s.cur.cut, phase := .returned true }
      else if c = 63 then
        { cur := (s.cur.skip 1).cut, phase := .returned true, query := some (s.cur.read + 1) }
      else { s with cur := s.cur.skip 1 }

/-- `unescape_uri` on the string at the start of a buffer, after `n` rounds. -/
def unescapeRun (m : Mem) (n : ℕ) : Unescape := unescapeStep^[n] { cur := { buf := m } }

/-- Where `clean_pathname` is: in its outer loop, in its inner loop, or done. -/
inductive CleanPhase
  | copy
  | skip
  | done

/-- The variables of `clean_pathname`: `cleanpath` and `pathname` are the cursors. -/
structure Clean where
  cur : Cursors
  phase : CleanPhase := .copy

/-- One round of the loops of `clean_pathname`. -/
def cleanStep (s : Clean) : Clean :=
  match s.phase with
  | .done => s
  | .copy =>
      let c := s.cur.peek 0
      if c = 0 then { cur := (s.cur.skip 1).cut, phase := .done }
      else if c = 47 then { cur := s.cur.skip 1, phase := .skip }
      else { s with cur := s.cur.put c 1 }
  | .skip =>
      if s.cur.peek 0 = 47 then { s with cur := s.cur.skip 1 }
      else if s.cur.peek 0 = 46 ∧ s.cur.peek 1 = 47 then { s with cur := s.cur.skip 2 }
      else if s.cur.peek 0 = 46 ∧ s.cur.peek 1 = 46 ∧ s.cur.peek 2 = 47 then
        { s with cur := s.cur.skip 3 }
      else { cur := s.cur.put 47 0, phase := .copy }

/-- `clean_pathname` on the string at the start of a buffer, after `n` rounds. -/
def cleanRun (m : Mem) (n : ℕ) : Clean := cleanStep^[n] { cur := { buf := m } }

/-! ### The question mark of the query string -/

/-- For each byte of a URI, whether it is one of the two that an escape consumes; none is
behind a `#`. -/
def consumed : Bytes → List Bool
  | [] => []
  | 37 :: _ :: _ :: uri => false :: true :: true :: consumed uri
  | b :: uri => false :: if b = 35 then List.replicate uri.length false else consumed uri

/-- The position of the first `?` that no escape consumes. -/
def queryMark (uri : Bytes) : Option ℕ :=
  (uri.zip (consumed uri)).findIdx? fun p => p.1 == 63 && !p.2

lemma queryMark_escape (c d : UInt8) (uri : Bytes) :
    queryMark (37 :: c :: d :: uri) = (queryMark uri).map (· + 3) := by
  simp [queryMark, consumed, List.findIdx?_cons, Function.comp_def]

lemma queryMark_plain {b : UInt8} (uri : Bytes) (h₁ : b ≠ 37) (h₂ : b ≠ 63) (h₃ : b ≠ 35) :
    queryMark (b :: uri) = (queryMark uri).map (· + 1) := by
  rw [queryMark, consumed, if_neg h₃]
  · simp [queryMark, List.findIdx?_cons, h₂]
  · rintro c d s rfl
    exact absurd rfl h₁

lemma queryMark_question (uri : Bytes) : queryMark (63 :: uri) = some 0 := by
  simp [queryMark, consumed, List.findIdx?_cons]

lemma findIdx?_zip_replicate (uri : Bytes) :
    (uri.zip (List.replicate uri.length false)).findIdx? (fun p => p.1 == 63 && !p.2)
      = strchr 63 uri := by
  rw [strchr]
  induction uri with
  | nil => rfl
  | cons b uri ih =>
      rw [List.length_cons, List.replicate_succ, List.zip_cons_cons, List.findIdx?_cons,
        List.findIdx?_cons, ih]
      simp

lemma queryMark_fragment (uri : Bytes) :
    queryMark (35 :: uri) = (strchr 63 uri).map (· + 1) := by
  rw [← findIdx?_zip_replicate]
  simp [queryMark, consumed, List.findIdx?_cons]

lemma lt_length_of_queryMark {uri : Bytes} {k : ℕ} (h : k ∈ queryMark uri) : k < uri.length := by
  obtain ⟨hlt, -⟩ := List.findIdx?_eq_some_iff_getElem.mp h
  rw [List.length_zip] at hlt
  exact hlt.trans_le (min_le_left _ _)

/-- The query string that `unescape_uri` sets is what follows the mark. -/
lemma unescapeUri_query {uri : Bytes} (hok : (unescapeUri uri true).1 = true) :
    (unescapeUri uri true).2.2 = (queryMark uri).map fun k => uri.drop (k + 1) := by
  rw [unescapeUri] at hok ⊢
  induction uri using uri_induction with
  | nil => rfl
  | escape c d uri ih =>
      rw [unescapeLoop_escape] at hok ⊢
      split_ifs at hok ⊢
      rw [queryMark_escape, Option.map_map]
      exact ih hok
  | cut uri h =>
      rw [unescapeLoop_cut true h] at hok
      exact absurd hok (by simp)
  | stop b uri h =>
      rcases h with rfl | rfl
      · rw [queryMark_question]
        rfl
      · rw [queryMark_fragment, Option.map_map]
        rfl
  | plain b uri h₁ h₂ h₃ ih =>
      rw [unescapeLoop_plain true uri h₁ h₂ h₃] at hok ⊢
      rw [queryMark_plain uri h₁ h₂ h₃, Option.map_map]
      exact ih hok

/-! ### `unescape_uri` -/

section Unescape

variable {m : Mem} {u : Bytes} {s : Unescape}

/-- In the first loop: `out` has been written, and `t` is still to be read. -/
structure InPath (m : Mem) (u : Bytes) (s : Unescape) (out t : Bytes) : Prop where
  written : s.cur.Written m out
  rest : m.HasStr s.cur.read t
  query : s.query = none
  result : (unescapeLoop true u).1 = (unescapeLoop true t).1
  decoded : (unescapeLoop true u).2.1 = out ++ (unescapeLoop true t).2.1
  mark : queryMark u = (queryMark t).map (s.cur.read + ·)

/-- In the second loop: nothing more will be written. -/
structure InFragment (m : Mem) (u : Bytes) (s : Unescape) (out t : Bytes) : Prop where
  written : s.cur.Written m out
  behind : s.cur.write < s.cur.read
  rest : m.HasStr s.cur.read t
  query : s.query = none
  result : (unescapeLoop true u).1 = true
  decoded : (unescapeLoop true u).2.1 = out
  mark : queryMark u = (strchr 63 t).map (s.cur.read + ·)

/-- Back at the caller; after a success the path is decoded and the query string found,
behind everything that has been written. -/
structure Returned (m : Mem) (u : Bytes) (s : Unescape) (ok : Bool) : Prop where
  behind : s.cur.Behind m
  result : (unescapeLoop true u).1 = ok
  decoded : ok = true → s.cur.buf.HasStr 0 (unescapeLoop true u).2.1
  query : ok = true → s.query = (queryMark u).map (· + 1)
  front : ok = true → ∀ k ∈ queryMark u, s.cur.read ≤ k + 1 ∧ (unescapeLoop true u).2.1.length ≤ k

/-- Where the pass stands, with less than `n` bytes to read. -/
def Unescaping (m : Mem) (u : Bytes) (n : ℕ) (s : Unescape) : Prop :=
  match s.phase with
  | .path => ∃ out t, t.length < n ∧ InPath m u s out t
  | .fragment => ∃ out t, t.length < n ∧ InFragment m u s out t
  | .returned ok => Returned m u s ok

/-- A round of the second loop. -/
lemma InFragment.step {out t : Bytes} {n : ℕ} (h : InFragment m u s out t)
    (hphase : s.phase = .fragment) (hn : t.length < n) :
    Unescaping m u (n - 1) (unescapeStep s) := by
  have hpeek : s.cur.peek 0 = m s.cur.read := h.written.toBehind.peek 0
  cases t with
  | nil =>
      have hzero := Mem.HasStr.nil_iff.mp h.rest
      have hstep : unescapeStep s = { s with cur := s.cur.cut, phase := .returned true } := by
        rw [unescapeStep, hphase]
        simp [hpeek, hzero]
      have hmark : queryMark u = none := h.mark
      rw [hstep]
      refine ⟨h.written.toBehind.cut (Or.inl h.behind), h.result, fun _ => ?_, fun _ => ?_,
        fun _ k hk => ?_⟩
      · rw [h.decoded]
        exact h.written.hasStr_cut
      · rw [hmark]
        exact h.query
      · rw [hmark] at hk
        exact absurd hk (by simp)
  | cons b t =>
      obtain ⟨hb, hb0, hrest⟩ := Mem.HasStr.cons_iff.mp h.rest
      by_cases hq : b = 63
      · subst hq
        have hstep : unescapeStep s
            = { cur := (s.cur.skip 1).cut, phase := .returned true,
                query := some (s.cur.read + 1) } := by
          rw [unescapeStep, hphase]
          simp [hpeek, hb]
        have hmark : queryMark u = some s.cur.read := h.mark
        have hlt : (s.cur.skip 1).write < (s.cur.skip 1).read := Nat.lt_succ_of_lt h.behind
        rw [hstep]
        refine ⟨(h.written.skip 1).toBehind.cut (Or.inl hlt), h.result, fun _ => ?_, fun _ => ?_,
          fun _ k hk => ?_⟩
        · rw [h.decoded]
          exact (h.written.skip 1).hasStr_cut
        · rw [hmark]
          rfl
        · obtain rfl : s.cur.read = k := by simpa [hmark] using hk
          rw [h.decoded, ← h.written.length]
          exact ⟨le_rfl, h.behind.le⟩
      · have hstep : unescapeStep s = { s with cur := s.cur.skip 1 } := by
          rw [unescapeStep, hphase]
          simp [hpeek, hb, hb0, hq]
        have hmark : queryMark u = (strchr 63 t).map (s.cur.read + 1 + ·) := by
          rw [h.mark, strchr, List.findIdx?_cons, ← strchr]
          simp [hq, Function.comp_def, Nat.add_assoc, Nat.add_comm 1]
        rw [hstep, Unescaping, hphase]
        refine ⟨out, t, by simp at hn; omega, ?_⟩
        exact ⟨h.written.skip 1, Nat.lt_succ_of_lt h.behind, hrest, h.query, h.result, h.decoded,
          hmark⟩

/-- A failure, wherever the read cursor is. -/
lemma InPath.failed {out t : Bytes} (h : InPath m u s out t) {i : ℕ} (hi : 0 < i)
    (hfail : (unescapeLoop true t).1 = false) :
    Returned m u { s with cur := (s.cur.skip i).cut, phase := .returned false } false := by
  have hle := h.written.le
  have hlt : (s.cur.skip i).write < (s.cur.skip i).read := by
    simp
    omega
  exact ⟨(h.written.skip i).toBehind.cut (Or.inl hlt), h.result.trans hfail, by simp, by simp,
    by simp⟩

/-- A round of the first loop. -/
lemma InPath.step {out t : Bytes} {n : ℕ} (h : InPath m u s out t) (hphase : s.phase = .path)
    (hn : t.length < n) : Unescaping m u (n - 1) (unescapeStep s) := by
  have hpeek (i : ℕ) : s.cur.peek i = m (s.cur.read + i) := h.written.toBehind.peek i
  have hle := h.written.le
  induction t using uri_induction with
  | nil =>
      have hzero := Mem.HasStr.nil_iff.mp h.rest
      have hstep : unescapeStep s = { s with cur := s.cur.cut, phase := .returned true } := by
        rw [unescapeStep, hphase]
        simp [hpeek, hzero]
      have hmark : queryMark u = none := h.mark
      have hdecoded : (unescapeLoop true u).2.1 = out := by simpa [unescapeLoop] using h.decoded
      rw [hstep]
      refine ⟨h.written.toBehind.cut (Or.inr hzero), h.result, fun _ => ?_, fun _ => ?_,
        fun _ k hk => ?_⟩
      · rw [hdecoded]
        exact h.written.hasStr_cut
      · rw [hmark]
        exact h.query
      · rw [hmark] at hk
        exact absurd hk (by simp)
  | escape c d t _ =>
      obtain ⟨h37, -, hrest⟩ := Mem.HasStr.cons_iff.mp h.rest
      obtain ⟨hc, hc0, hrest⟩ := Mem.HasStr.cons_iff.mp hrest
      obtain ⟨hd, hd0, hrest⟩ := Mem.HasStr.cons_iff.mp hrest
      have hresult := h.result
      have hdecoded := h.decoded
      rw [unescapeLoop_escape] at hresult hdecoded
      by_cases hwin : charVal (hexToDecimal c d) < 32 ∨ 126 < charVal (hexToDecimal c d)
      · have hstep : unescapeStep s
            = { s with cur := (s.cur.skip 3).cut, phase := .returned false } := by
          rw [unescapeStep, hphase]
          simp [hpeek, h37, hc, hd, hc0, hd0, hwin]
        rw [hstep]
        exact h.failed (by simp) (by rw [unescapeLoop_escape, if_pos hwin])
      · have hstep : unescapeStep s = { s with cur := s.cur.put (hexToDecimal c d) 3 } := by
          rw [unescapeStep, hphase]
          simp [hpeek, h37, hc, hd, hc0, hd0, hwin]
        have hne : hexToDecimal c d ≠ 0 := by
          intro h0
          exact hwin (Or.inl (by rw [h0]; decide))
        rw [if_neg hwin] at hresult hdecoded
        rw [hstep, Unescaping, hphase]
        refine ⟨out ++ [hexToDecimal c d], t, by simp at hn; omega, ?_⟩
        refine ⟨h.written.put (by omega) hne, hrest, h.query, hresult, by simpa using hdecoded, ?_⟩
        rw [h.mark, queryMark_escape, Option.map_map]
        congr 1
        funext i
        simp [Nat.add_assoc, Nat.add_comm 3]
  | cut t hcut =>
      obtain ⟨h37, -, hrest⟩ := Mem.HasStr.cons_iff.mp h.rest
      have hfail : (unescapeLoop true (37 :: t)).1 = false := by rw [unescapeLoop_cut true hcut]
      cases t with
      | nil =>
          have hzero := Mem.HasStr.nil_iff.mp hrest
          have hstep : unescapeStep s
              = { s with cur := (s.cur.skip 2).cut, phase := .returned false } := by
            rw [unescapeStep, hphase]
            simp [hpeek, h37, hzero]
          rw [hstep]
          exact h.failed (by simp) hfail
      | cons c t =>
          obtain rfl : t = [] := List.length_eq_zero_iff.mp (by simpa using hcut)
          obtain ⟨hc, hc0, hrest⟩ := Mem.HasStr.cons_iff.mp hrest
          have hzero := Mem.HasStr.nil_iff.mp hrest
          have hstep : unescapeStep s
              = { s with cur := (s.cur.skip 3).cut, phase := .returned false } := by
            rw [unescapeStep, hphase]
            simp [hpeek, h37, hc, hc0, hzero]
          rw [hstep]
          exact h.failed (by simp) hfail
  | stop b t hstop =>
      obtain ⟨hb, hb0, hrest⟩ := Mem.HasStr.cons_iff.mp h.rest
      rcases hstop with rfl | rfl
      · have hstep : unescapeStep s
            = { cur := (s.cur.skip 1).cut, phase := .returned true,
                query := some (s.cur.read + 1) } := by
          rw [unescapeStep, hphase]
          simp [hpeek, hb]
        have hmark : queryMark u = some s.cur.read := by
          rw [h.mark, queryMark_question]
          rfl
        have hdecoded : (unescapeLoop true u).2.1 = out := by simpa [unescapeLoop] using h.decoded
        have hlt : (s.cur.skip 1).write < (s.cur.skip 1).read := Nat.lt_succ_of_le hle
        rw [hstep]
        refine ⟨(h.written.skip 1).toBehind.cut (Or.inl hlt), h.result, fun _ => ?_, fun _ => ?_,
          fun _ k hk => ?_⟩
        · rw [hdecoded]
          exact (h.written.skip 1).hasStr_cut
        · rw [hmark]
          rfl
        · obtain rfl : s.cur.read = k := by simpa [hmark] using hk
          rw [hdecoded, ← h.written.length]
          exact ⟨le_rfl, hle⟩
      · have hstep : unescapeStep s = { s with cur := s.cur.skip 1, phase := .fragment } := by
          rw [unescapeStep, hphase]
          simp [hpeek, hb]
        have hdecoded : (unescapeLoop true u).2.1 = out := by simpa [unescapeLoop] using h.decoded
        have hmark : queryMark u = (strchr 63 t).map (s.cur.read + 1 + ·) := by
          rw [h.mark, queryMark_fragment, Option.map_map]
          congr 1
          funext i
          simp [Nat.add_assoc, Nat.add_comm 1]
        rw [hstep]
        refine ⟨out, t, by simp at hn; omega, ?_⟩
        exact ⟨h.written.skip 1, Nat.lt_succ_of_le hle, hrest, h.query, h.result, hdecoded, hmark⟩
  | plain b t h₁ h₂ h₃ _ =>
      obtain ⟨hb, hb0, hrest⟩ := Mem.HasStr.cons_iff.mp h.rest
      have hstep : unescapeStep s = { s with cur := s.cur.put b 1 } := by
        rw [unescapeStep, hphase]
        simp [hpeek, hb, hb0, h₁, h₂, h₃]
      have hresult := h.result
      have hdecoded := h.decoded
      rw [unescapeLoop_plain true t h₁ h₂ h₃] at hresult hdecoded
      rw [hstep, Unescaping, hphase]
      refine ⟨out ++ [b], t, by simp at hn; omega, ?_⟩
      refine ⟨h.written.put (by omega) hb0, hrest, h.query, hresult, by simpa using hdecoded, ?_⟩
      rw [h.mark, queryMark_plain t h₁ h₂ h₃, Option.map_map]
      congr 1
      funext i
      simp [Nat.add_assoc, Nat.add_comm 1]

/-- A round of `unescape_uri`. -/
lemma Unescaping.step {n : ℕ} (h : Unescaping m u n s) :
    Unescaping m u (n - 1) (unescapeStep s) := by
  cases hphase : s.phase with
  | path =>
      rw [Unescaping, hphase] at h
      obtain ⟨out, t, hlt, hin⟩ := h
      exact hin.step hphase hlt
  | fragment =>
      rw [Unescaping, hphase] at h
      obtain ⟨out, t, hlt, hin⟩ := h
      exact hin.step hphase hlt
  | returned ok =>
      have hstep : unescapeStep s = s := by rw [unescapeStep, hphase]
      rw [hstep, Unescaping, hphase]
      rw [Unescaping, hphase] at h
      exact h

/-- The whole run. -/
lemma unescaping_run (hm : m.HasStr 0 u) (n : ℕ) :
    Unescaping m u (u.length + 1 - n) (unescapeRun m n) := by
  induction n with
  | zero =>
      exact ⟨[], u, by simp, Cursors.written_start m, hm, rfl, rfl, rfl, by simp [unescapeRun]⟩
  | succ n ih =>
      rw [unescapeRun, Function.iterate_succ_apply', ← unescapeRun, Nat.sub_add_eq]
      exact ih.step

/-- `unescape_uri` returns what `unescapeUri` says. -/
lemma exists_returned (hm : m.HasStr 0 u) : ∃ n,
    (unescapeRun m n).phase = .returned (unescapeUri u true).1 ∧
      Returned m u (unescapeRun m n) (unescapeUri u true).1 := by
  have h := unescaping_run hm (u.length + 1)
  rw [Nat.sub_self] at h
  refine ⟨u.length + 1, ?_⟩
  cases hphase : (unescapeRun m (u.length + 1)).phase with
  | path =>
      rw [Unescaping, hphase] at h
      obtain ⟨_, _, hlt, -⟩ := h
      exact absurd hlt (Nat.not_lt_zero _)
  | fragment =>
      rw [Unescaping, hphase] at h
      obtain ⟨_, _, hlt, -⟩ := h
      exact absurd hlt (Nat.not_lt_zero _)
  | returned ok =>
      rw [Unescaping, hphase] at h
      obtain rfl : (unescapeUri u true).1 = ok := h.result
      exact ⟨rfl, h⟩

/-- Wherever the pass stands, it has read no further than the mark of the query string,
and the bytes behind the read cursor are the original ones. -/
lemma Unescaping.behind {n : ℕ} (h : Unescaping m u n s) (hok : (unescapeUri u true).1 = true) :
    s.cur.Behind m ∧ ∀ k ∈ queryMark u, s.cur.read ≤ k + 1 := by
  cases hphase : s.phase with
  | path =>
      rw [Unescaping, hphase] at h
      obtain ⟨out, t, -, hin⟩ := h
      refine ⟨hin.written.toBehind, fun k hk => ?_⟩
      rw [hin.mark] at hk
      obtain ⟨i, -, rfl⟩ := Option.mem_map.mp hk
      omega
  | fragment =>
      rw [Unescaping, hphase] at h
      obtain ⟨out, t, -, hin⟩ := h
      refine ⟨hin.written.toBehind, fun k hk => ?_⟩
      rw [hin.mark] at hk
      obtain ⟨i, -, rfl⟩ := Option.mem_map.mp hk
      omega
  | returned ok =>
      rw [Unescaping, hphase] at h
      have htrue : ok = true := h.result.symm.trans hok
      exact ⟨h.behind, fun k hk => (h.front htrue k hk).1⟩

end Unescape

/-! ### `clean_pathname` -/

section Clean

variable {m : Mem} {p : Bytes} {s : Clean}

/-- In a loop of `clean_pathname`: `out` has been written, and `t` is still to be read; in
the inner loop the slash has yet to be written. -/
structure InLoop (m : Mem) (p : Bytes) (s : Clean) (slash : Bool) (out t : Bytes) : Prop where
  written : s.cur.Written m out
  behind : slash = true → s.cur.write < s.cur.read
  rest : m.HasStr s.cur.read t
  cleaned : cleanPathname p = out ++ if slash then 47 :: cleanLoop true t else cleanLoop false t
  length : s.cur.read + t.length = p.length

/-- Done: the path is cleaned, and nothing behind its end has been read. -/
structure Cleaned (m : Mem) (p : Bytes) (s : Clean) : Prop where
  behind : s.cur.Behind m
  cleaned : s.cur.buf.HasStr 0 (cleanPathname p)
  length : s.cur.read = p.length + 1

/-- Where the pass stands; every round lowers twice the bytes to read and the slash to
write below `n`. -/
def Cleaning (m : Mem) (p : Bytes) (n : ℕ) (s : Clean) : Prop :=
  match s.phase with
  | .copy => ∃ out t, 2 * t.length < n ∧ InLoop m p s false out t
  | .skip => ∃ out t, 2 * t.length + 1 < n ∧ InLoop m p s true out t
  | .done => Cleaned m p s

/-- A round of the outer loop. -/
lemma InLoop.step_copy {out t : Bytes} {n : ℕ} (h : InLoop m p s false out t)
    (hphase : s.phase = .copy) (hn : 2 * t.length < n) : Cleaning m p (n - 1) (cleanStep s) := by
  have hpeek (i : ℕ) : s.cur.peek i = m (s.cur.read + i) := h.written.toBehind.peek i
  have hle := h.written.le
  have hlt : (s.cur.skip 1).write < (s.cur.skip 1).read := Nat.lt_succ_of_le hle
  cases t with
  | nil =>
      have hzero := Mem.HasStr.nil_iff.mp h.rest
      have hstep : cleanStep s = { cur := (s.cur.skip 1).cut, phase := .done } := by
        rw [cleanStep, hphase]
        simp [hpeek, hzero]
      have hcleaned : cleanPathname p = out := by simpa [cleanLoop] using h.cleaned
      rw [hstep]
      refine ⟨(h.written.skip 1).toBehind.cut (Or.inl hlt), ?_, ?_⟩
      · rw [hcleaned]
        exact (h.written.skip 1).hasStr_cut
      · have hlen := h.length
        simp at hlen ⊢
        exact hlen
  | cons b t =>
      obtain ⟨hb, hb0, hrest⟩ := Mem.HasStr.cons_iff.mp h.rest
      have hlen := h.length
      rw [List.length_cons] at hlen hn
      by_cases hslash : b = 47
      · subst hslash
        have hstep : cleanStep s = { cur := s.cur.skip 1, phase := .skip } := by
          rw [cleanStep, hphase]
          simp [hpeek, hb]
        rw [hstep]
        refine ⟨out, t, by omega, h.written.skip 1, fun _ => hlt, hrest, ?_, by simp; omega⟩
        simpa [cleanLoop] using h.cleaned
      · have hstep : cleanStep s = { s with cur := s.cur.put b 1 } := by
          rw [cleanStep, hphase]
          simp [hpeek, hb, hb0, hslash]
        rw [hstep, Cleaning, hphase]
        refine ⟨out ++ [b], t, by omega, h.written.put (by omega) hb0, by simp, hrest, ?_,
          by simp; omega⟩
        simpa [cleanLoop_false_cons hslash] using h.cleaned

/-- A round of the inner loop. -/
lemma InLoop.step_skip {out t : Bytes} {n : ℕ} (h : InLoop m p s true out t)
    (hphase : s.phase = .skip) (hn : 2 * t.length + 1 < n) :
    Cleaning m p (n - 1) (cleanStep s) := by
  have hpeek (i : ℕ) : s.cur.peek i = m (s.cur.read + i) := h.written.toBehind.peek i
  have hbehind := h.behind rfl
  have hskip (i : ℕ) (t' : Bytes) (hi : t.length = t'.length + i) (hpos : 0 < i)
      (hrest : m.HasStr (s.cur.read + i) t') (hloop : cleanLoop true t = cleanLoop true t') :
      Cleaning m p (n - 1) { s with cur := s.cur.skip i } := by
    have hlen := h.length
    rw [Cleaning, hphase]
    refine ⟨out, t', by omega, h.written.skip i, fun _ => ?_, hrest, ?_, ?_⟩
    · exact hbehind.trans_le (Nat.le_add_right _ _)
    · rw [h.cleaned, if_pos rfl, if_pos rfl, hloop]
    · simp
      omega
  by_cases h₁ : ∃ q, t = 47 :: q
  · obtain ⟨q, rfl⟩ := h₁
    obtain ⟨hb, -, hrest⟩ := Mem.HasStr.cons_iff.mp h.rest
    have hstep : cleanStep s = { s with cur := s.cur.skip 1 } := by
      rw [cleanStep, hphase]
      simp [hpeek, hb]
    rw [hstep]
    exact hskip 1 q rfl Nat.one_pos hrest rfl
  by_cases h₂ : ∃ q, t = 46 :: 47 :: q
  · obtain ⟨q, rfl⟩ := h₂
    obtain ⟨hb, -, hrest⟩ := Mem.HasStr.cons_iff.mp h.rest
    obtain ⟨hc, -, hrest⟩ := Mem.HasStr.cons_iff.mp hrest
    have hstep : cleanStep s = { s with cur := s.cur.skip 2 } := by
      rw [cleanStep, hphase]
      simp [hpeek, hb, hc]
    rw [hstep]
    exact hskip 2 q rfl Nat.two_pos hrest rfl
  by_cases h₃ : ∃ q, t = 46 :: 46 :: 47 :: q
  · obtain ⟨q, rfl⟩ := h₃
    obtain ⟨hb, -, hrest⟩ := Mem.HasStr.cons_iff.mp h.rest
    obtain ⟨hc, -, hrest⟩ := Mem.HasStr.cons_iff.mp hrest
    obtain ⟨hd, -, hrest⟩ := Mem.HasStr.cons_iff.mp hrest
    have hstep : cleanStep s = { s with cur := s.cur.skip 3 } := by
      rw [cleanStep, hphase]
      simp [hpeek, hb, hc, hd]
    rw [hstep]
    exact hskip 3 q rfl (by decide) hrest rfl
  · have hloop : cleanLoop true t = cleanLoop false t :=
      cleanLoop_true_of_ne (fun q hq => h₁ ⟨q, hq⟩) (fun q hq => h₂ ⟨q, hq⟩)
        (fun q hq => h₃ ⟨q, hq⟩)
    have hne₁ : ¬ s.cur.peek 0 = 47 := by
      intro hb
      obtain ⟨q, rfl, -⟩ := h.rest.exists_cons ((hpeek 0).symm.trans hb) (by decide)
      exact h₁ ⟨q, rfl⟩
    have hne₂ : ¬ (s.cur.peek 0 = 46 ∧ s.cur.peek 1 = 47) := by
      rintro ⟨hb, hc⟩
      obtain ⟨q, rfl, hrest⟩ := h.rest.exists_cons ((hpeek 0).symm.trans hb) (by decide)
      obtain ⟨q, rfl, -⟩ := hrest.exists_cons ((hpeek 1).symm.trans hc) (by decide)
      exact h₂ ⟨q, rfl⟩
    have hne₃ : ¬ (s.cur.peek 0 = 46 ∧ s.cur.peek 1 = 46 ∧ s.cur.peek 2 = 47) := by
      rintro ⟨hb, hc, hd⟩
      obtain ⟨q₁, rfl, hrest₁⟩ := h.rest.exists_cons ((hpeek 0).symm.trans hb) (by decide)
      obtain ⟨q₂, rfl, hrest₂⟩ := hrest₁.exists_cons ((hpeek 1).symm.trans hc) (by decide)
      obtain ⟨q, rfl, -⟩ := hrest₂.exists_cons ((hpeek 2).symm.trans hd) (by decide)
      exact h₃ ⟨q, rfl⟩
    have hstep : cleanStep s = { cur := s.cur.put 47 0, phase := .copy } := by
      rw [cleanStep, hphase]
      simp only [if_neg hne₁, if_neg hne₂, if_neg hne₃]
    rw [hstep]
    refine ⟨out ++ [47], t, by omega, h.written.put hbehind (by decide), by simp, h.rest, ?_,
      h.length⟩
    rw [h.cleaned, hloop]
    simp

/-- A round of `clean_pathname`. -/
lemma Cleaning.step {n : ℕ} (h : Cleaning m p n s) : Cleaning m p (n - 1) (cleanStep s) := by
  cases hphase : s.phase with
  | copy =>
      rw [Cleaning, hphase] at h
      obtain ⟨out, t, hlt, hin⟩ := h
      exact hin.step_copy hphase hlt
  | skip =>
      rw [Cleaning, hphase] at h
      obtain ⟨out, t, hlt, hin⟩ := h
      exact hin.step_skip hphase hlt
  | done =>
      have hstep : cleanStep s = s := by rw [cleanStep, hphase]
      rw [hstep, Cleaning, hphase]
      rw [Cleaning, hphase] at h
      exact h

/-- The whole run. -/
lemma cleaning_run (hm : m.HasStr 0 p) (n : ℕ) :
    Cleaning m p (2 * p.length + 1 - n) (cleanRun m n) := by
  induction n with
  | zero => exact ⟨[], p, by simp, Cursors.written_start m, by simp, hm, rfl, by simp [cleanRun]⟩
  | succ n ih =>
      rw [cleanRun, Function.iterate_succ_apply', ← cleanRun, Nat.sub_add_eq]
      exact ih.step

/-- `clean_pathname` leaves what `cleanPathname` says. -/
lemma exists_done (hm : m.HasStr 0 p) : ∃ n,
    (cleanRun m n).phase = .done ∧ Cleaned m p (cleanRun m n) := by
  have h := cleaning_run hm (2 * p.length + 1)
  rw [Nat.sub_self] at h
  refine ⟨2 * p.length + 1, ?_⟩
  cases hphase : (cleanRun m (2 * p.length + 1)).phase with
  | copy =>
      rw [Cleaning, hphase] at h
      obtain ⟨_, _, hlt, -⟩ := h
      exact absurd hlt (Nat.not_lt_zero _)
  | skip =>
      rw [Cleaning, hphase] at h
      obtain ⟨_, _, hlt, -⟩ := h
      exact absurd hlt (Nat.not_lt_zero _)
  | done =>
      rw [Cleaning, hphase] at h
      exact ⟨rfl, h⟩

/-- Wherever the pass stands, it has read no further than the end of the path. -/
lemma Cleaning.behind {n : ℕ} (h : Cleaning m p n s) :
    s.cur.Behind m ∧ s.cur.read ≤ p.length + 1 := by
  cases hphase : s.phase with
  | copy =>
      rw [Cleaning, hphase] at h
      obtain ⟨out, t, -, hin⟩ := h
      exact ⟨hin.written.toBehind, by have := hin.length; omega⟩
  | skip =>
      rw [Cleaning, hphase] at h
      obtain ⟨out, t, -, hin⟩ := h
      exact ⟨hin.written.toBehind, by have := hin.length; omega⟩
  | done =>
      rw [Cleaning, hphase] at h
      exact ⟨h.behind, h.length.le⟩

end Clean

/-! ### The query string -/

/-- **The query string survives** both passes: their write cursors stay behind their read
cursors, nothing unread and nothing of the query string is overwritten, and at the end
`query_string` points at what followed the mark. -/
theorem query_survives {m : Mem} {u : Bytes} (hm : m.HasStr 0 u)
    (hok : (unescapeUri u true).1 = true) :
    (∀ j, (unescapeRun m j).cur.Behind m ∧
      ∀ k ∈ queryMark u, ∀ i, k < i → (unescapeRun m j).cur.buf i = m i) ∧
    ∃ n, (unescapeRun m n).phase = .returned true ∧
      (unescapeRun m n).query = (queryMark u).map (· + 1) ∧
      (∀ j, (cleanRun (unescapeRun m n).cur.buf j).cur.Behind (unescapeRun m n).cur.buf ∧
        ∀ k ∈ queryMark u, ∀ i, k < i →
          (cleanRun (unescapeRun m n).cur.buf j).cur.buf i = m i) ∧
      ∃ l, (cleanRun (unescapeRun m n).cur.buf l).phase = .done ∧
        (cleanRun (unescapeRun m n).cur.buf l).cur.buf.HasStr 0
          (cleanPathname (unescapeUri u true).2.1) ∧
        ∀ k ∈ queryMark u,
          (cleanRun (unescapeRun m n).cur.buf l).cur.buf.HasStr (k + 1) (u.drop (k + 1)) := by
  have hunescape (j : ℕ) : (unescapeRun m j).cur.Behind m ∧
      ∀ k ∈ queryMark u, ∀ i, k < i → (unescapeRun m j).cur.buf i = m i := by
    obtain ⟨hbehind, hread⟩ := (unescaping_run hm j).behind hok
    exact ⟨hbehind, fun k hk i hi => hbehind.ahead i ((hread k hk).trans hi)⟩
  obtain ⟨n, hphase, hret⟩ := exists_returned hm
  rw [hok] at hphase hret
  have hpath := hret.decoded rfl
  have hclean (j : ℕ) :
      (cleanRun (unescapeRun m n).cur.buf j).cur.Behind (unescapeRun m n).cur.buf ∧
      ∀ k ∈ queryMark u, ∀ i, k < i →
        (cleanRun (unescapeRun m n).cur.buf j).cur.buf i = m i := by
    obtain ⟨hbehind, hread⟩ := (cleaning_run hpath j).behind
    refine ⟨hbehind, fun k hk i hi => ?_⟩
    have hend := (hret.front rfl k hk).2
    exact (hbehind.ahead i (by omega)).trans ((hunescape n).2 k hk i hi)
  obtain ⟨l, hdone, hcleaned⟩ := exists_done hpath
  refine ⟨hunescape, n, hphase, hret.query rfl, hclean, l, hdone, hcleaned.cleaned, fun k hk => ?_⟩
  have hquery := hm.drop (lt_length_of_queryMark hk)
  rw [Nat.zero_add] at hquery
  exact hquery.congr fun i hi => (hclean l).2 k hk i hi

/-- An escape that consumes a question mark, and a query string behind a fragment. -/
theorem query_survives_fragment : ∃ n l,
    (cleanRun (unescapeRun (Mem.store (fun _ => 0) 0 (str "/a%4?/.././#x?y=%20" ++ [0])) n).cur.buf
      l).cur.buf.HasStr 14 (str "y=%20") := by
  have hm : (Mem.store (fun _ => 0) 0 (str "/a%4?/.././#x?y=%20" ++ [0])).HasStr 0
      (str "/a%4?/.././#x?y=%20") := Mem.HasStr.of_store (by decide)
  obtain ⟨-, n, -, -, -, l, -, -, hquery⟩ := query_survives hm (by decide)
  exact ⟨n, l, hquery 13 (by decide)⟩

end Yabwf
