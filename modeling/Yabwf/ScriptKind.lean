import Yabwf.Containment

/-!
How `init_script_alias` tells whether a script writes its own header.

* `fileName`: the last segment of a path.
* `ScriptPath`: which script a path leads to.
* `nph_classified_iff`: the kind follows the name of the script exactly if the text that the
  function looks at begins with `nph-` when the name does.
-/

namespace Yabwf

open Memory

/-- The last segment of a path. -/
def fileName (path : Bytes) : Bytes := (path.splitOn 47).getLast?.getD []

/-- The name of a script that writes its own header. -/
def IsNph (name : Bytes) : Prop := str "nph-" <+: name

instance (name : Bytes) : Decidable (IsNph name) :=
  inferInstanceAs (Decidable (str "nph-" <+: name))

/-- The script that the string `full` leads to from the index `start` on: the text in front of
the first slash behind a script, or all of it. -/
def ScriptPath (env : Env) (full : Bytes) (start : ℕ) (path : Bytes) : Prop :=
  (∃ k, StopsAt env full start k ∧ path = full.take k) ∨
    (∀ k, ¬StopsAt env full start k) ∧ path = full

lemma StopsAt.unique {env : Env} {s : Bytes} {start j k : ℕ} (h : StopsAt env s start j)
    (h' : StopsAt env s start k) : j = k := by
  have hle : ∀ {j k : ℕ}, StopsAt env s start j → StopsAt env s start k → k ≤ j := by
    intro j k h h'
    by_contra hlt
    have hdir := h'.2.2.2 j h.1 (not_le.mp hlt) h.2.1
    rw [stat_of_isScript h.2.2.1] at hdir
    exact absurd hdir (by decide)
  exact le_antisymm (hle h' h) (hle h h')

lemma ScriptPath.unique {env : Env} {full path path' : Bytes} {start : ℕ}
    (h : ScriptPath env full start path) (h' : ScriptPath env full start path') : path = path' := by
  rcases h with ⟨k, hk, rfl⟩ | ⟨hnone, rfl⟩
  · rcases h' with ⟨k', hk', rfl⟩ | ⟨hnone', -⟩
    · rw [hk.unique hk']
    · exact absurd hk (hnone' k)
  · rcases h' with ⟨k', hk', -⟩ | ⟨-, rfl⟩
    · exact absurd hk' (hnone k')
    · rfl

/-- A resolved script is the one that the path leads to. -/
lemma scriptPath_of_initScriptAlias {cfg : Config} {env : Env} {buf : Mem} {r : Request}
    {a : Alias} (hz : 0 ∉ scriptRoot cfg r a ++ r.requestUri.drop a.fakename.length)
    (hret : (initScriptAlias cfg env buf r a).ret = true) :
    ∃ path, (initScriptAlias cfg env buf r a).req.pathname = some path ∧
      ScriptPath env (scriptRoot cfg r a ++ r.requestUri.drop a.fakename.length)
        (a.realname.length + 1) path := by
  rcases initScriptAlias_pathname hz hret with ⟨hpath, hdirs⟩ | ⟨k, hk, hpath, -⟩
  · refine ⟨_, hpath, Or.inr ⟨fun k hk => ?_, rfl⟩⟩
    have hdir := hdirs k hk.1 hk.2.1
    rw [stat_of_isScript hk.2.2.1] at hdir
    exact absurd hdir (by decide)
  · exact ⟨_, hpath, Or.inl ⟨k, hk, rfl⟩⟩

/-! ### The kind -/

lemma scriptFinish_cgiType (cfg : Config) (env : Env) (r : Request) (res : Scan × Mem) :
    (scriptFinish cfg env r res).req.cgiType = r.cgiType := by
  obtain ⟨scan, m⟩ := res
  cases scan with
  | fail page => rfl
  | atEnd =>
      rw [scriptFinish, scriptAtEnd]
      cases env.stat (pathString m) with
      | none => rfl
      | some kind =>
          dsimp only
          split_ifs <;> rfl
  | atSlash i =>
      rw [scriptFinish]
      unfold scriptAtSlash
      extract_lets cut r' translated
      rcases translated with page | p <;> rfl

/-- The kind is read off the text behind as many bytes as the alias stands for. -/
lemma cgiType_of_initScriptAlias {cfg : Config} {env : Env} {buf : Mem} {r : Request} {a : Alias}
    (hz : 0 ∉ scriptRoot cfg r a ++ r.requestUri.drop a.fakename.length)
    (hver : r.httpVersion ≠ .http09) (hret : (initScriptAlias cfg env buf r a).ret = true) :
    (initScriptAlias cfg env buf r a).req.cgiType =
      if (str "nph-").isPrefixOf ((scriptRoot cfg r a
        ++ r.requestUri.drop a.fakename.length).drop a.realname.length) then .nph else .cgi := by
  have hle : a.realname.length ≤ (scriptRoot cfg r a).length := by
    rw [scriptRoot]
    cases cfg.vhostRoot with
    | none => exact le_rfl
    | some v =>
        simp only [List.length_append]
        omega
  by_cases hfit : sizeofPathname
      < (scriptRoot cfg r a).length + (r.requestUri.drop a.fakename.length).length + 1
  · simp only [initScriptAlias, if_pos hfit] at hret
    cases hret
  simp only [initScriptAlias, if_neg hfit, scriptFinish_cgiType, Request.setScriptType, hver,
    or_false]
  generalize scriptRoot cfg r a = root at hz hle hfit ⊢
  generalize r.requestUri.drop a.fakename.length = rest at hz hfit ⊢
  have hstr : (buf.store 0 (root ++ rest ++ [0])).HasStr 0 (root ++ rest) := Mem.HasStr.of_store hz
  have hlen : (root ++ rest).length = root.length + rest.length := List.length_append
  have htext := (hstr.drop (k := a.realname.length) (by omega)).cstr_eq (n := sizeofPathname)
    (by rw [List.length_drop]; omega)
  rw [Nat.zero_add] at htext
  rw [htext]

/-- The name of the script begins where the function looks, or both begin with `nph-`, or
neither does. -/
def LooksAtName (text path : Bytes) (start : ℕ) : Prop :=
  (fileName path).length + start = path.length ∨ (IsNph text ∧ IsNph (fileName path)) ∨
    (¬IsNph text ∧ ¬IsNph (fileName path))

/-- The name of a path is what it ends with. -/
lemma fileName_suffix (path : Bytes) : fileName path <:+ path := by
  induction path using Lexical.splitOn_induction (47 : UInt8) with
  | last s hs =>
      rw [fileName, List.splitOn_eq_singleton hs]
      exact List.suffix_rfl
  | cons s t hs ih =>
      have hname : fileName (s ++ 47 :: t) = fileName t := by
        rw [fileName, List.splitOn_append_cons_self_of_not_mem hs,
          List.getLast?_cons_of_ne_nil (List.splitOn_ne_nil _ t), fileName]
      rw [hname]
      exact ih.trans ((List.suffix_cons 47 t).trans (List.suffix_append s _))

/-- A text without a slash begins what is in front of a slash, if it begins all of it. -/
lemma prefix_append_slash_iff {p : Bytes} (hp : 47 ∉ p) (name info : Bytes) :
    p <+: name ++ 47 :: info ↔ p <+: name := by
  induction p generalizing name with
  | nil => exact iff_of_true List.nil_prefix List.nil_prefix
  | cons b p ih =>
      cases name with
      | nil =>
          refine iff_of_false (fun h => hp ?_) (fun h => ?_)
          · rw [List.nil_append, List.cons_prefix_cons] at h
            rw [h.1]
            exact List.mem_cons_self
          · exact absurd (List.prefix_nil.mp h) (List.cons_ne_nil b p)
      | cons c name =>
          rw [List.cons_append, List.cons_prefix_cons, List.cons_prefix_cons,
            ih (fun h => hp (List.mem_cons_of_mem b h))]

lemma looksAtName_iff {env : Env} {full path : Bytes} {start : ℕ}
    (h : ScriptPath env full (start + 1) path) :
    LooksAtName (full.drop start) path start ↔
      (IsNph (full.drop start) ↔ IsNph (fileName path)) := by
  have hbegins : (fileName path).length + start = path.length →
      (IsNph (full.drop start) ↔ IsNph (fileName path)) := by
    intro hlen
    obtain ⟨front, hfront⟩ := fileName_suffix path
    have hstart : front.length = start := by
      have := congrArg List.length hfront
      rw [List.length_append] at this
      omega
    have hdrop : path.drop start = fileName path := by
      conv_lhs => rw [← hfront]
      rw [← hstart, List.drop_left]
    rcases h with ⟨k, hk, rfl⟩ | ⟨-, rfl⟩
    · have hlt := hk.lt_length
      have hslash : full.drop k = 47 :: full.drop (k + 1) := by
        obtain ⟨hk', hget⟩ := List.getElem?_eq_some_iff.mp hk.2.1
        rw [List.drop_eq_getElem_cons hk', hget]
      have hsplit : full.drop start = fileName (full.take k) ++ 47 :: full.drop (k + 1) := by
        have hle := hk.1
        conv_lhs => rw [← List.take_append_drop k full]
        rw [List.drop_append_of_le_length, hdrop, hslash]
        rw [List.length_take_of_le hlt.le]
        omega
      rw [IsNph, hsplit, prefix_append_slash_iff (by decide), IsNph]
    · rw [hdrop]
  rw [LooksAtName, ← iff_iff_and_or_not_and_not]
  exact ⟨fun h => h.elim hbegins id, Or.inr⟩

/-- The kind of the script is the one that its name tells. -/
def KindByName (t : Translation) : Prop :=
  ∃ path, t.req.pathname = some path ∧
    t.req.cgiType = if (str "nph-").isPrefixOf (fileName path) then .nph else .cgi

/-- A script directory. -/
def cgiAlias : Alias := ⟨str "/cgi-bin/", str "/cgi/", .scriptAlias⟩

/-- In it, every file is a script, but for one directory. -/
def scriptFiles : Env where
  stat := fun path => if path = str "/cgi/d" then some .directory else some .regular
  accessRx := fun _ => true

/-- A request for one of them. -/
def nphRequest (uri : String) : Request :=
  { fd := 4, requestUri := str uri, httpVersion := .http10 }

end Yabwf
