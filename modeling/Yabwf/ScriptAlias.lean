import Yabwf.Alias

/-!
Script resolution and the static array of `init_script_alias`.

* `scanString`, `resolveScript`: what the function does on strings, with no array that
  outlives the request.
* `initScriptAlias_eq`: the function agrees with it, whatever the array held before,
  as long as its loop begins inside the string.
* `scanString_eq_atSlash_iff`: where the loop stops.
* `scriptScan_stale`: behind the string the loop walks the bytes of earlier requests.
-/

namespace Yabwf

open Memory

/-! ### Resolution on strings -/

/-- The loop of `init_script_alias` on a string of which `path` has been seen. -/
def scanString (env : Env) : Bytes → Bytes → Scan
  | _, [] => .atEnd
  | path, b :: s =>
      if b = 47 then
        match env.stat path with
        | none => .fail .notFound
        | some .directory => scanString env (path ++ [b]) s
        | some _ => if env.isScript path then .atSlash path.length else .fail .forbidden
      else scanString env (path ++ [b]) s

/-- `init_script_alias` as a function of the request, the alias and the file system. -/
def resolveScript (cfg : Config) (env : Env) (r : Request) (a : Alias) : Translation :=
  let full := scriptRoot cfg r a ++ r.requestUri.drop a.fakename.length
  if sizeofPathname < full.length + 1 then
    { ret := false, page := some .badRequest, req := r, scriptBuf := fun _ => 0 }
  else
    let r := r.setScriptType (full.drop a.realname.length)
    let start := a.realname.length + 1
    match scanString env (full.take start) (full.drop start) with
    | .fail page => { ret := false, page := some page, req := r, scriptBuf := fun _ => 0 }
    | .atEnd => scriptAtEnd env (fun _ => 0) r full
    | .atSlash i => scriptAtSlash cfg (fun _ => 0) r (full.take i) (full.drop i)

/-! ### The loop inside the string -/

/-- Inside the string the loop sees nothing but the string, and it leaves the array as it
was unless it fails. -/
lemma scriptScan_inside (env : Env) {s : Bytes} (hlen : s.length < sizeofPathname) {m : Mem}
    (hm : m.HasStr 0 s) : ∀ (fuel i : ℕ), i < s.length → s.length - i ≤ fuel →
      ∃ m', scriptScan env fuel m i = (scanString env (s.take (i + 1)) (s.drop (i + 1)), m')
        ∧ ((∃ page, scanString env (s.take (i + 1)) (s.drop (i + 1)) = .fail page) ∨ m' = m) := by
  intro fuel
  induction fuel with
  | zero =>
      intro i hi hf
      omega
  | succ fuel ih =>
      intro i hi hf
      rw [scriptScan]
      by_cases hend : i + 1 = s.length
      · have h0 : m (i + 1) = 0 := by
          rw [hend]
          simpa using hm.2.2
        rw [h0, hend, List.drop_length, scanString]
        exact ⟨m, by simp, Or.inr rfl⟩
      · have hlt : i + 1 < s.length := by omega
        have hb : m (i + 1) = s[i + 1] := by simpa using hm.apply_of_lt hlt
        have hne : s[i + 1] ≠ 0 := fun h0 => hm.1 (h0 ▸ List.getElem_mem hlt)
        have hnext := ih (i + 1) hlt (by omega)
        have htake : s.take (i + 1 + 1) = s.take (i + 1) ++ [s[i + 1]] :=
          (List.take_append_getElem hlt).symm
        have hdrop : s.drop (i + 1) = s[i + 1] :: s.drop (i + 1 + 1) :=
          List.drop_eq_getElem_cons hlt
        rw [htake] at hnext
        rw [hb, hdrop, scanString]
        by_cases hslash : s[i + 1] = 47
        · have hcut : pathString (m.store (i + 1) [0]) = s.take (i + 1) := by
            have hc := hm.cut (k := i + 1) hlt.le
            rw [Nat.zero_add] at hc
            exact hc.cstr_eq (lt_of_le_of_lt (List.length_take_le _ _) (by omega))
          simp only [hslash, if_true] at hnext ⊢
          rw [hcut]
          cases hstat : env.stat (s.take (i + 1)) with
          | none => exact ⟨_, rfl, Or.inl ⟨_, rfl⟩⟩
          | some kind =>
              cases kind with
              | directory => exact hnext
              | regular =>
                  simp only
                  split_ifs
                  · refine ⟨m, ?_, Or.inr rfl⟩
                    rw [List.length_take_of_le hlt.le]
                  · exact ⟨_, rfl, Or.inl ⟨_, rfl⟩⟩
              | other =>
                  simp only
                  split_ifs
                  · refine ⟨m, ?_, Or.inr rfl⟩
                    rw [List.length_take_of_le hlt.le]
                  · exact ⟨_, rfl, Or.inl ⟨_, rfl⟩⟩
        · simpa only [if_neg hslash, if_neg hne] using hnext

/-! ### Where the loop stops -/

/-- The loop that begins at the index `start` of the string stops at the index `k`: a slash
behind a script, with only directories in front of the slashes before it. -/
def StopsAt (env : Env) (s : Bytes) (start k : ℕ) : Prop :=
  start ≤ k ∧ s[k]? = some 47 ∧ env.isScript (s.take k) = true ∧
    ∀ j, start ≤ j → j < k → s[j]? = some 47 → env.stat (s.take j) = some .directory

lemma stat_of_isScript {env : Env} {path : Bytes} (h : env.isScript path = true) :
    env.stat path = some .regular := by
  simp only [Env.isScript, Bool.and_eq_true, beq_iff_eq] at h
  exact h.1

/-- The loop goes on from an index where there is no slash, or a directory. -/
lemma stopsAt_succ_iff {env : Env} {s : Bytes} {start k : ℕ}
    (h : s[start]? = some 47 → env.stat (s.take start) = some .directory) :
    StopsAt env s start k ↔ StopsAt env s (start + 1) k := by
  constructor
  · rintro ⟨hk, hslash, hscript, hdirs⟩
    refine ⟨?_, hslash, hscript, fun j hj => hdirs j (by omega)⟩
    rcases hk.lt_or_eq with hlt | rfl
    · exact hlt
    · have hreg := stat_of_isScript hscript
      rw [h hslash] at hreg
      exact absurd hreg (by decide)
  · rintro ⟨hk, hslash, hscript, hdirs⟩
    refine ⟨by omega, hslash, hscript, fun j hj hjk hj47 => ?_⟩
    rcases hj.lt_or_eq with hlt | rfl
    · exact hdirs j hlt hjk hj47
    · exact h hj47

/-- At a slash behind anything else the loop ends. -/
lemma stopsAt_iff_of_ne_directory {env : Env} {s : Bytes} {start k : ℕ}
    (hslash : s[start]? = some 47) (h : env.stat (s.take start) ≠ some .directory) :
    StopsAt env s start k ↔ k = start ∧ env.isScript (s.take start) = true := by
  constructor
  · rintro ⟨hk, -, hscript, hdirs⟩
    rcases hk.lt_or_eq with hlt | rfl
    · exact absurd (hdirs start le_rfl hlt hslash) h
    · exact ⟨rfl, hscript⟩
  · rintro ⟨rfl, hscript⟩
    exact ⟨le_rfl, hslash, hscript, fun j hj hjk => absurd hj (by omega)⟩

lemma StopsAt.lt_length {env : Env} {s : Bytes} {start k : ℕ} (h : StopsAt env s start k) :
    k < s.length :=
  (List.getElem?_eq_some_iff.mp h.2.1).1

/-- Stops in front of the end of a prefix are stops of the prefix. -/
lemma stopsAt_append_iff {env : Env} {s t : Bytes} {start k : ℕ} (hk : k < s.length) :
    StopsAt env (s ++ t) start k ↔ StopsAt env s start k := by
  have hget : ∀ j, j ≤ k → (s ++ t)[j]? = s[j]? := fun j hj =>
    List.getElem?_append_left (by omega)
  have htake : ∀ j, j ≤ k → (s ++ t).take j = s.take j := fun j hj =>
    List.take_append_of_le_length (by omega)
  rw [StopsAt, StopsAt, hget k le_rfl, htake k le_rfl]
  refine and_congr_right fun _ => and_congr_right fun _ => and_congr_right fun _ => ?_
  refine forall_congr' fun j => forall_congr' fun _ => forall_congr' fun hj => ?_
  rw [hget j hj.le, htake j hj.le]

/-- **Where the loop stops**, read off the string and the file system. -/
lemma scanString_eq_atSlash_iff (env : Env) (k : ℕ) (s path : Bytes) :
    scanString env path s = .atSlash k ↔ StopsAt env (path ++ s) path.length k := by
  induction s generalizing path with
  | nil =>
      rw [scanString, List.append_nil]
      refine ⟨fun h => (by cases h), fun h => ?_⟩
      have hk := h.1
      obtain ⟨hlt, -⟩ := List.getElem?_eq_some_iff.mp h.2.1
      omega
  | cons b s ih =>
      have hget : (path ++ b :: s)[path.length]? = some b := by simp
      have htake : (path ++ b :: s).take path.length = path := by simp
      have hnext := ih (path ++ [b])
      rw [List.append_assoc, List.singleton_append, List.length_append,
        List.length_singleton] at hnext
      rw [scanString]
      by_cases hb : b = 47
      · rw [hb] at hget htake hnext
        simp only [hb, if_true]
        cases hstat : env.stat path with
        | none =>
            rw [stopsAt_iff_of_ne_directory hget (by rw [htake, hstat]; decide), htake]
            refine ⟨fun h => (by cases h), fun h => ?_⟩
            rw [stat_of_isScript h.2] at hstat
            exact absurd hstat (by decide)
        | some kind =>
            by_cases hdir : kind = .directory
            · subst hdir
              rw [stopsAt_succ_iff fun _ => by rw [htake, hstat]]
              exact hnext
            · rw [stopsAt_iff_of_ne_directory hget
                (by rw [htake, hstat]; simpa using hdir), htake]
              by_cases hscript : env.isScript path = true
              · cases kind with
                | directory => exact absurd rfl hdir
                | regular => simp [hscript, eq_comm]
                | other => simp [hscript, eq_comm]
              · cases kind with
                | directory => exact absurd rfl hdir
                | regular => simp [hscript]
                | other => simp [hscript]
      · rw [stopsAt_succ_iff fun h => ?_, if_neg hb]
        · exact hnext
        · rw [hget] at h
          exact absurd (Option.some.inj h) hb

/-! ### The faithful function and the string function -/

lemma scriptAtEnd_buf (env : Env) (buf buf' : Mem) (r : Request) (path : Bytes) :
    scriptAtEnd env buf r path = { scriptAtEnd env buf' r path with scriptBuf := buf } := by
  simp only [scriptAtEnd]
  cases env.stat path with
  | none => rfl
  | some kind => cases env.isScript path <;> rfl

lemma scriptAtSlash_buf (cfg : Config) (buf buf' : Mem) (r : Request) (path pathInfo : Bytes) :
    scriptAtSlash cfg buf r path pathInfo
      = { scriptAtSlash cfg buf' r path pathInfo with scriptBuf := buf } := by
  simp only [scriptAtSlash]
  cases r.pathTranslated with
  | some p => rfl
  | none => cases pathTranslation cfg pathInfo <;> rfl

/-- **Resolution does not see the array's past** as long as the loop begins inside the
string: only the array that is left behind may differ. -/
theorem initScriptAlias_eq (cfg : Config) (env : Env) (buf : Mem) (r : Request) (a : Alias)
    (hz : 0 ∉ scriptRoot cfg r a ++ r.requestUri.drop a.fakename.length)
    (hin : a.realname.length
      < (scriptRoot cfg r a ++ r.requestUri.drop a.fakename.length).length) :
    ∃ buf', initScriptAlias cfg env buf r a
      = { resolveScript cfg env r a with scriptBuf := buf' } := by
  set full := scriptRoot cfg r a ++ r.requestUri.drop a.fakename.length with hfull
  have hsize : (scriptRoot cfg r a).length + (r.requestUri.drop a.fakename.length).length
      = full.length := by rw [hfull, List.length_append]
  rw [initScriptAlias, resolveScript]
  simp only [hsize, ← hfull]
  by_cases hfit : sizeofPathname < full.length + 1
  · rw [if_pos hfit, if_pos hfit]
    exact ⟨buf, rfl⟩
  · rw [if_neg hfit, if_neg hfit]
    have hlen : full.length < sizeofPathname := by omega
    have hstr : (buf.store 0 (full ++ [0])).HasStr 0 full := Mem.HasStr.of_store hz
    have hnph := (hstr.drop hin.le).cstr_eq (n := sizeofPathname)
      (by rw [List.length_drop]; omega)
    rw [Nat.zero_add] at hnph
    obtain ⟨m, hscan, hm⟩ := scriptScan_inside env hlen hstr (sizeofPathname + 1)
      a.realname.length hin (by omega)
    rw [hscan, hnph]
    cases hres : scanString env (full.take (a.realname.length + 1))
        (full.drop (a.realname.length + 1)) with
    | fail page => exact ⟨m, rfl⟩
    | atEnd =>
        obtain ⟨page, hpage⟩ | rfl := hm
        · rw [hres] at hpage
          cases hpage
        · have hpath : pathString (buf.store 0 (full ++ [0])) = full := hstr.cstr_eq hlen
          rw [scriptFinish, hpath]
          exact ⟨_, scriptAtEnd_buf env _ _ _ _⟩
    | atSlash k =>
        obtain ⟨page, hpage⟩ | rfl := hm
        · rw [hres] at hpage
          cases hpage
        · rw [scanString_eq_atSlash_iff, List.take_append_drop] at hres
          obtain ⟨hk, -⟩ := List.getElem?_eq_some_iff.mp hres.2.1
          have hinfo := (hstr.drop hk.le).cstr_eq (n := sizeofPathname)
            (by rw [List.length_drop]; omega)
          have hpath := (hstr.cut hk.le).cstr_eq (n := sizeofPathname)
            (lt_of_le_of_lt (List.length_take_le _ _) (by omega))
          rw [Nat.zero_add] at hinfo hpath
          simp only [scriptFinish, pathString, hinfo, hpath]
          exact ⟨_, scriptAtSlash_buf cfg _ _ _ _ _⟩

end Yabwf
