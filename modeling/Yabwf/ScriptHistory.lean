import Yabwf.ScriptAlias

/-!
Script resolution after other requests.

* `Call`, `history`: the earlier calls of `init_script_alias` and the array they leave.
* `HistoryIndependent`, `NamesUri`: what the function owes to its callers: the same
  answer whatever came before, and a script name and path info that make up the URI.
* `script_resolution_iff`: it does so exactly when its loop begins inside the string, or
  the alias is a directory, and when it does not stop in front of a slash of a virtual
  host's root.
-/

namespace Yabwf

open Memory

/-! ### Histories -/

/-- A call of `init_script_alias`: the file system at the time, the request, the alias. -/
structure Call where
  env : Env
  req : Request
  entry : Alias

/-- The alias is an entry of the table that passes the test of `find_alias`. -/
def Call.Matches (cfg : Config) (x : Call) : Prop :=
  x.entry ∈ cfg.aliases (getAliasHashValue x.req.requestUri) ∧
    x.entry.matchesUri x.req.requestUri = true ∧ x.entry.type = .scriptAlias

/-- The static array after the calls. -/
def history (cfg : Config) (calls : List Call) : Mem :=
  calls.foldl (fun buf x => (initScriptAlias cfg x.env buf x.req x.entry).scriptBuf)
    (fun _ => 0)

/-- What the rest of the server sees of a resolution. -/
structure Resolution where
  ret : Bool
  pathname : Option Bytes
  scriptName : Option Bytes
  pathInfo : Option Bytes
  pathTranslated : Option Bytes
  cgiType : CgiType
  deriving DecidableEq, Repr

/-- The resolution that a call leaves behind. -/
def Translation.visible (t : Translation) : Resolution where
  ret := t.ret
  pathname := t.req.pathname
  scriptName := t.req.scriptName
  pathInfo := t.req.pathInfo
  pathTranslated := t.req.pathTranslated
  cgiType := t.req.cgiType

/-- The answer is the same after any two histories. -/
def HistoryIndependent (cfg : Config) (env : Env) (r : Request) (a : Alias) : Prop :=
  ∀ h₁ h₂ : List Call, (∀ x ∈ h₁, x.Matches cfg) → (∀ x ∈ h₂, x.Matches cfg) →
    (initScriptAlias cfg env (history cfg h₁) r a).visible
      = (initScriptAlias cfg env (history cfg h₂) r a).visible

/-- A successful resolution splits the URI into the script's name and its path info, and
cuts the name inside. -/
def Translation.NamesUri (t : Translation) (uri : Bytes) : Prop :=
  t.ret = true →
    (∃ name, t.req.scriptName = some name ∧ name ++ t.req.pathInfo.getD [] = uri) ∧
      ∀ i, t.cut = some i → 0 ≤ i ∧ i ≤ uri.length

/-- The loop begins inside the string, or it has only directories to find. -/
def BeginsInside (cfg : Config) (env : Env) (r : Request) (a : Alias) : Prop :=
  cfg.vhostRoot = none → r.requestUri ≠ a.fakename ∨ env.stat a.realname = some .directory

/-- A stop inside the root of a virtual host, for a path that fits and a path info that can
be translated, leaves a path info that ends the alias's name. -/
def StopsBehindName (cfg : Config) (env : Env) (r : Request) (a : Alias) : Prop :=
  let root := scriptRoot cfg r a
  let rest := r.requestUri.drop a.fakename.length
  ∀ k, StopsAt env root (a.realname.length + 1) k →
    root.length + rest.length + 1 ≤ sizeofPathname →
    (∃ p, pathTranslation cfg (root.drop k ++ rest) = .inr p) →
    root.drop k <:+ a.fakename

/-! ### Inside the string -/

lemma requestUri_eq {r : Request} {a : Alias} (h : a.matchesUri r.requestUri = true) :
    r.requestUri = a.fakename ++ r.requestUri.drop a.fakename.length := by
  simp only [Alias.matchesUri, Bool.and_eq_true] at h
  exact (List.prefix_iff_eq_append.mp (List.isPrefixOf_iff_prefix.mp h.1)).symm

/-- With a path info that can be translated, the split is right exactly when the path info
ends the URI. -/
lemma scriptAtSlash_namesUri_iff (cfg : Config) (buf : Mem) (r : Request) (path : Bytes)
    {pathInfo : Bytes} (hr : r.pathTranslated = none) :
    (scriptAtSlash cfg buf r path pathInfo).NamesUri r.requestUri ↔
      ((∃ p, pathTranslation cfg pathInfo = .inr p) → pathInfo <:+ r.requestUri) := by
  simp only [scriptAtSlash, hr, Translation.NamesUri]
  cases pathTranslation cfg pathInfo with
  | inl page => simp
  | inr p =>
      simp only [Sum.inr.injEq, exists_eq', forall_const, Option.some.injEq, exists_eq_left',
        Option.getD_some]
      constructor
      · rintro ⟨h, -⟩
        exact ⟨_, h⟩
      · rintro ⟨name, h⟩
        have hcut : (r.requestUri.length : ℤ) - pathInfo.length = name.length := by
          rw [← h, List.length_append, Nat.cast_add, add_sub_cancel_right]
        rw [hcut]
        refine ⟨?_, ?_⟩
        · rw [if_pos (Int.natCast_nonneg _), Int.toNat_natCast, ← h, List.take_left]
        · rintro i rfl
          omega

lemma scriptAtEnd_namesUri (env : Env) (buf : Mem) (r : Request) (path : Bytes)
    (hr : r.pathInfo = none) : (scriptAtEnd env buf r path).NamesUri r.requestUri := by
  simp only [scriptAtEnd, Translation.NamesUri]
  cases env.stat path with
  | none => simp
  | some kind => cases env.isScript path <;> simp [hr]

/-- On strings the split is right exactly when the loop does not stop inside the root, or
stops behind the end of the alias's name. -/
lemma resolveScript_namesUri_iff (cfg : Config) (env : Env) {r : Request} {a : Alias}
    (hmatch : a.matchesUri r.requestUri = true)
    (hfresh : r.pathInfo = none ∧ r.pathTranslated = none) :
    (resolveScript cfg env r a).NamesUri r.requestUri ↔ StopsBehindName cfg env r a := by
  have huri := requestUri_eq hmatch
  set rest := r.requestUri.drop a.fakename.length with hrest
  set root := scriptRoot cfg r a with hroot
  have hlen : root.length + rest.length = (root ++ rest).length := List.length_append.symm
  simp only [resolveScript, StopsBehindName, ← hrest, ← hroot, hlen]
  by_cases hfit : sizeofPathname < (root ++ rest).length + 1
  · rw [if_pos hfit]
    refine ⟨fun _ k _ h => by omega, fun _ h => by simp at h⟩
  rw [if_neg hfit]
  -- a stop inside the root is where the loop over the whole string stops
  have hscan : ∀ k, StopsAt env root (a.realname.length + 1) k →
      scanString env ((root ++ rest).take (a.realname.length + 1))
        ((root ++ rest).drop (a.realname.length + 1)) = .atSlash k := by
    intro k hk
    have hlt := hk.lt_length
    have hstart := hk.1
    rw [scanString_eq_atSlash_iff, List.take_append_drop, List.length_take_of_le,
      stopsAt_append_iff hlt]
    · exact hk
    · rw [← hlen]
      omega
  cases hres : scanString env ((root ++ rest).take (a.realname.length + 1))
      ((root ++ rest).drop (a.realname.length + 1)) with
  | fail page =>
      refine ⟨fun _ k hk => ?_, fun _ h => by simp at h⟩
      rw [hscan k hk] at hres
      cases hres
  | atEnd =>
      refine ⟨fun _ k hk => ?_, fun _ => ?_⟩
      · rw [hscan k hk] at hres
        cases hres
      · exact scriptAtEnd_namesUri env _ (r.setScriptType _) _ hfresh.1
  | atSlash i =>
      refine (scriptAtSlash_namesUri_iff cfg _ (r.setScriptType _) _ hfresh.2).trans ?_
      rw [Request.setScriptType_requestUri]
      constructor
      · intro h k hk _ hp
        have hki : i = k := by
          rw [hscan k hk] at hres
          exact (Scan.atSlash.inj hres).symm
        rw [hki, List.drop_append_of_le_length hk.lt_length.le, huri] at h
        obtain ⟨t, ht⟩ := h hp
        exact ⟨t, List.append_cancel_right (by rw [List.append_assoc, ht])⟩
      · intro h hp
        by_cases hi : i < root.length
        · have hk : StopsAt env root (a.realname.length + 1) i := by
            rw [scanString_eq_atSlash_iff, List.take_append_drop, stopsAt_append_iff hi] at hres
            rcases le_or_gt (a.realname.length + 1) (root ++ rest).length with hle | hgt
            · rwa [List.length_take_of_le hle] at hres
            · have h1 := hres.1
              rw [List.length_take, min_eq_right hgt.le, List.length_append] at h1
              omega
          rw [List.drop_append_of_le_length hi.le] at hp ⊢
          obtain ⟨t, ht⟩ := h i hk (by omega) hp
          exact ⟨t, by rw [huri, ← List.append_assoc, ht]⟩
        · rw [List.drop_append, List.drop_eq_nil_of_le (not_lt.mp hi), List.nil_append, huri]
          exact (List.drop_suffix _ _).trans (List.suffix_append _ _)

/-! ### Behind the string -/

/-- Behind the string of a directory every stale slash is passed over. -/
lemma scriptScan_stale_directory {env : Env} {s : Bytes} {m : Mem} (hm : m.HasStr 0 s)
    (hlen : s.length < sizeofPathname) (hdir : env.stat s = some .directory) :
    ∀ fuel i : ℕ, s.length ≤ i → scriptScan env fuel m i = (.atEnd, m) := by
  intro fuel
  induction fuel with
  | zero => exact fun _ _ => rfl
  | succ fuel ih =>
      intro i hi
      have hpath : pathString (m.store (i + 1) [0]) = s :=
        (hm.store_of_gt (by omega) [0]).cstr_eq hlen
      rw [scriptScan]
      simp only [hpath, hdir]
      split_ifs
      · exact ih (i + 1) (by omega)
      · rfl
      · exact ih (i + 1) (by omega)

/-- Behind the string of anything else the first stale slash ends the loop. -/
lemma scriptScan_stale_ne_atEnd {env : Env} {s : Bytes} {m : Mem} (hm : m.HasStr 0 s)
    (hlen : s.length < sizeofPathname) (hdir : env.stat s ≠ some .directory) {j : ℕ}
    (hj : m j = 47) : ∀ fuel i : ℕ, s.length ≤ i → i < j → j - i ≤ fuel →
      (∀ l, i < l → l < j → m l ≠ 0) → (scriptScan env fuel m i).1 ≠ .atEnd := by
  intro fuel
  induction fuel with
  | zero =>
      intro i _ hij hf
      omega
  | succ fuel ih =>
      intro i hi hij hf hne
      have hpath : pathString (m.store (i + 1) [0]) = s :=
        (hm.store_of_gt (by omega) [0]).cstr_eq hlen
      rw [scriptScan]
      simp only [hpath]
      by_cases hslash : m (i + 1) = 47
      · rw [if_pos hslash]
        rcases hstat : env.stat s with _ | (_ | _ | _)
        · simp
        · exact absurd hstat hdir
        · cases env.isScript s <;> simp
        · cases env.isScript s <;> simp
      · have hlt : i + 1 < j := by
          rcases (Nat.succ_le_of_lt hij).lt_or_eq with h | rfl
          · exact h
          · exact absurd hj hslash
        rw [if_neg hslash, if_neg (hne (i + 1) (by omega) hlt)]
        exact ih (i + 1) (by omega) hlt (by omega) fun l hl => hne l (by omega)

/-- When all paths are directories, the loop runs to the end of the string. -/
lemma scanString_of_directories {env : Env} (h : ∀ path, env.stat path = some .directory)
    (s path : Bytes) : scanString env path s = .atEnd := by
  induction s generalizing path with
  | nil => rfl
  | cons b s ih =>
      rw [scanString, h path]
      by_cases hb : b = 47
      · rw [if_pos hb]
        exact ih (path ++ [b])
      · rw [if_neg hb]
        exact ih (path ++ [b])

/-! ### An earlier request that leaves a slash behind -/

/-- What an earlier request appends to the alias's name: a directory and its slash. -/
def longer (fakename : Bytes) : Bytes :=
  if fakename.getLast? = some 47 then str "D/" else str "/D/"

/-- A call for a directory below the alias, in a file system of directories. -/
def longerCall (r : Request) (a : Alias) : Call where
  env := { stat := fun _ => some .directory }
  req := { r with requestUri := a.fakename ++ longer a.fakename }
  entry := a

lemma takeWhile_append_slash (g t : Bytes) :
    (g ++ 47 :: t).takeWhile (· != 47) = g.takeWhile (· != 47) := by
  induction g with
  | nil => rfl
  | cons b g ih =>
      rw [List.cons_append, List.takeWhile_cons, List.takeWhile_cons, ih]

/-- The longer URI is in the same bucket. -/
lemma getAliasHashValue_longer {f : Bytes} (hf : f ≠ []) (hslash : f.head? = some 47) :
    getAliasHashValue (f ++ longer f) = getAliasHashValue f := by
  obtain ⟨g, rfl⟩ : ∃ g, f = 47 :: g := by
    cases f with
    | nil => exact absurd rfl hf
    | cons b g => exact ⟨g, by simpa using hslash⟩
  rw [longer]
  rcases List.eq_nil_or_concat g with rfl | ⟨g, b, rfl⟩
  · rfl
  · have hlast : (47 :: (g ++ [b])).getLast? = some b := by
      rw [← List.cons_append, List.getLast?_concat]
    rw [List.concat_eq_append, hlast]
    split_ifs with hb
    · rw [Option.some.inj hb, List.cons_append, List.append_assoc, List.singleton_append,
        getAliasHashValue, getAliasHashValue, takeWhile_append_slash, takeWhile_append_slash]
    · rw [List.cons_append, show str "/D/" = 47 :: str "D/" from rfl, getAliasHashValue,
        getAliasHashValue, takeWhile_append_slash]

lemma longerCall_matches {cfg : Config} {env : Env} {r : Request} {a : Alias}
    (hcall : Call.Matches cfg ⟨env, r, a⟩) (huri : r.requestUri = a.fakename)
    (hf : a.fakename ≠ []) (hslash : a.fakename.head? = some 47) :
    (longerCall r a).Matches cfg := by
  obtain ⟨hmem, -, htype⟩ := hcall
  simp only [huri] at hmem
  refine ⟨?_, ?_, htype⟩
  · simpa only [longerCall, getAliasHashValue_longer hf hslash] using hmem
  · simp only [longerCall, longer, Alias.matchesUri]
    by_cases hlast : a.fakename.getLast? = some 47
    · simp [hlast]
    · simp [hlast, str]

/-- The array after that call holds the longer path. -/
lemma history_longerCall {cfg : Config} (r : Request) {a : Alias} (hv : cfg.vhostRoot = none)
    (hlen : a.realname.length ≤ 1009) (hz : 0 ∉ a.realname) :
    history cfg [longerCall r a]
      = Mem.store (fun _ => 0) 0 (a.realname ++ longer a.fakename ++ [0]) := by
  have hsuffix : 0 < (longer a.fakename).length ∧ (longer a.fakename).length ≤ 3
      ∧ 0 ∉ longer a.fakename := by
    rw [longer]
    split_ifs <;> decide
  obtain ⟨hpos, hle, hz'⟩ := hsuffix
  have hroot : scriptRoot cfg (longerCall r a).req a = a.realname := by
    rw [scriptRoot, hv]
  have hrest : (longerCall r a).req.requestUri.drop a.fakename.length = longer a.fakename := by
    simp [longerCall]
  have hfull : (a.realname ++ longer a.fakename).length
      = a.realname.length + (longer a.fakename).length := List.length_append
  have hfit : ¬sizeofPathname < a.realname.length + (longer a.fakename).length + 1 := by
    simp only [sizeofPathname, maxHeaderLength]
    omega
  have hstr : (Mem.store (fun _ => 0) 0 (a.realname ++ longer a.fakename ++ [0])).HasStr 0
      (a.realname ++ longer a.fakename) :=
    Mem.HasStr.of_store (by simp [hz, hz'])
  obtain ⟨m, hscan, hm⟩ := scriptScan_inside (longerCall r a).env
    (show (a.realname ++ longer a.fakename).length < sizeofPathname by omega) hstr
    (sizeofPathname + 1) a.realname.length (by omega) (by omega)
  rw [scanString_of_directories fun _ => rfl] at hscan hm
  obtain ⟨page, hpage⟩ | rfl := hm
  · cases hpage
  · simp only [history, List.foldl_cons, List.foldl_nil, initScriptAlias]
    rw [show (longerCall r a).entry = a from rfl, hroot, hrest, if_neg hfit, hscan]
    exact congrArg Translation.scriptBuf (scriptAtEnd_buf _ _ (fun _ => 0) _ _)

/-! ### The alias's own name -/

lemma scriptAtEnd_req (env : Env) (buf : Mem) (r : Request) (path : Bytes) :
    (scriptAtEnd env buf r path).req.scriptName = some r.requestUri
      ∧ (scriptAtEnd env buf r path).req.pathInfo = r.pathInfo := by
  simp only [scriptAtEnd]
  cases env.stat path with
  | none => exact ⟨rfl, rfl⟩
  | some kind => cases env.isScript path <;> exact ⟨rfl, rfl⟩

lemma scriptAtSlash_pathInfo (cfg : Config) (buf : Mem) (r : Request) (path pathInfo : Bytes) :
    (scriptAtSlash cfg buf r path pathInfo).req.pathInfo = some pathInfo := by
  simp only [scriptAtSlash]
  cases r.pathTranslated with
  | some p => rfl
  | none => cases pathTranslation cfg pathInfo <;> rfl

/-- The function on the alias's own name, in terms of how its loop ends. -/
lemma initScriptAlias_of_eq_fakename {cfg : Config} (env : Env) (buf : Mem) {r : Request}
    {a : Alias} (hv : cfg.vhostRoot = none) (huri : r.requestUri = a.fakename)
    (hlen : a.realname.length ≤ 1009) (hz : 0 ∉ a.realname) :
    initScriptAlias cfg env buf r a
      = scriptFinish cfg env (r.setScriptType [])
          (scriptScan env (sizeofPathname + 1) (buf.store 0 (a.realname ++ [0]))
            a.realname.length) := by
  have hroot : scriptRoot cfg r a = a.realname := by rw [scriptRoot, hv]
  have hrest : r.requestUri.drop a.fakename.length = [] := by rw [huri, List.drop_length]
  have hfit : ¬sizeofPathname < a.realname.length + ([] : Bytes).length + 1 := by
    simp only [sizeofPathname, maxHeaderLength, List.length_nil]
    omega
  have hstr : (buf.store 0 (a.realname ++ [0])).HasStr 0 a.realname := Mem.HasStr.of_store hz
  have hname := (hstr.drop le_rfl).cstr_eq (n := sizeofPathname) (by simp [sizeofPathname])
  rw [Nat.zero_add, List.drop_length] at hname
  simp only [initScriptAlias]
  rw [hroot, hrest, if_neg hfit, List.append_nil, hname]

/-- After no request at all, the byte behind the string is zero. -/
lemma scriptScan_fresh (env : Env) {s : Bytes} (fuel : ℕ) :
    scriptScan env (fuel + 1) (Mem.store (fun _ => 0) 0 (s ++ [0])) s.length
      = (.atEnd, Mem.store (fun _ => 0) 0 (s ++ [0])) := by
  have h0 : Mem.store (fun _ => 0) 0 (s ++ [0]) (s.length + 1) = 0 := by
    rw [Mem.store_of_le _ _ (by simp)]
  rw [scriptScan, h0]
  rfl

/-- After the longer request, the loop ends at the slash that it has left. -/
lemma scriptScan_after_longer {env : Env} {a : Alias} (hz : 0 ∉ a.realname)
    (hlen : a.realname.length ≤ 1009) (hdir : env.stat a.realname ≠ some .directory) :
    (scriptScan env (sizeofPathname + 1)
      ((Mem.store (fun _ => 0) 0 (a.realname ++ longer a.fakename ++ [0])).store 0
        (a.realname ++ [0])) a.realname.length).1 ≠ .atEnd := by
  set m := (Mem.store (fun _ => 0) 0 (a.realname ++ longer a.fakename ++ [0])).store 0
    (a.realname ++ [0]) with hm
  have hstr : m.HasStr 0 a.realname := Mem.HasStr.of_store hz
  have hsize : a.realname.length < sizeofPathname := by
    simp only [sizeofPathname, maxHeaderLength]
    omega
  -- behind the new string stands what the longer one had there
  have hstale : ∀ i, 0 < i → m (a.realname.length + i)
      = (a.realname ++ longer a.fakename ++ [0]).getD (a.realname.length + i) 0 := by
    intro i hi
    rw [hm, Mem.store_of_le _ _ (by simp; omega), Mem.store]
    split_ifs with h
    · rw [Nat.sub_zero]
    · rw [List.getD_eq_getElem?_getD, List.getElem?_eq_none (by omega), Option.getD_none]
  have hget : ∀ i, 0 < i → m (a.realname.length + i) = (longer a.fakename ++ [0]).getD i 0 := by
    intro i hi
    rw [hstale i hi, List.append_assoc, List.getD_eq_getElem?_getD,
      List.getElem?_append_right (by omega), Nat.add_sub_cancel_left,
      ← List.getD_eq_getElem?_getD]
  rw [longer] at hget
  split_ifs at hget
  · refine scriptScan_stale_ne_atEnd hstr hsize hdir (hget 1 (by omega)) _ _ le_rfl (by omega)
      (by omega) fun l h₁ h₂ => by omega
  · refine scriptScan_stale_ne_atEnd hstr hsize hdir (hget 2 (by omega)) _ _ le_rfl (by omega)
      (by omega) fun l h₁ h₂ => ?_
    rw [show l = a.realname.length + 1 by omega, hget 1 (by omega)]
    decide

/-! ### The two properties -/

/-- The loop begins inside the string unless the URI is the name of an alias outside of
virtual hosts. -/
lemma realname_length_lt {cfg : Config} {r : Request} {a : Alias}
    (hmatch : a.matchesUri r.requestUri = true)
    (h : cfg.vhostRoot = none → r.requestUri ≠ a.fakename) :
    a.realname.length < (scriptRoot cfg r a ++ r.requestUri.drop a.fakename.length).length := by
  rw [List.length_append, scriptRoot]
  cases hv : cfg.vhostRoot with
  | none =>
      have hrest : r.requestUri.drop a.fakename.length ≠ [] := by
        intro h0
        have := requestUri_eq hmatch
        rw [h0, List.append_nil] at this
        exact h hv this
      have := List.length_pos_of_ne_nil hrest
      simp only
      omega
  | some v =>
      simp only [List.length_append]
      have : (str "/").length = 1 := rfl
      omega

/-- A name that stands for no directory is resolved differently after the longer request. -/
lemma not_historyIndependent {cfg : Config} {env : Env} {r : Request} {a : Alias}
    (hcall : Call.Matches cfg ⟨env, r, a⟩) (hhead : r.requestUri.head? = some 47)
    (hlen : a.realname.length ≤ 1009) (hz : 0 ∉ a.realname)
    (hfresh : r.scriptName = none ∧ r.pathInfo = none) (hv : cfg.vhostRoot = none)
    (huri : r.requestUri = a.fakename) (hdir : env.stat a.realname ≠ some .directory) :
    ¬HistoryIndependent cfg env r a := by
  intro hind
  rw [huri] at hhead
  have hf : a.fakename ≠ [] := by
    rintro h0
    rw [h0] at hhead
    cases hhead
  have hmatches : ∀ x ∈ [longerCall r a], x.Matches cfg := by
    intro x hx
    rw [List.mem_singleton.mp hx]
    exact longerCall_matches hcall huri hf hhead
  have hsame := hind [] [longerCall r a] (by simp) hmatches
  simp only [Translation.visible, Resolution.mk.injEq] at hsame
  obtain ⟨-, -, hname, hinfo, -⟩ := hsame
  -- with a clean array the whole URI is the script's name
  have h₁ := initScriptAlias_of_eq_fakename env (history cfg []) hv huri hlen hz
  have hend := scriptAtEnd_req env (Mem.store (fun _ => 0) 0 (a.realname ++ [0]))
    (r.setScriptType []) (pathString (Mem.store (fun _ => 0) 0 (a.realname ++ [0])))
  rw [h₁, history, List.foldl_nil, scriptScan_fresh, scriptFinish] at hname hinfo
  rw [hend.1] at hname
  rw [hend.2] at hinfo
  -- after the longer request there is no name, or a path info
  have hne := scriptScan_after_longer hz hlen hdir
  rw [← history_longerCall r hv hlen hz] at hne
  rcases hscan : scriptScan env (sizeofPathname + 1)
    ((history cfg [longerCall r a]).store 0 (a.realname ++ [0])) a.realname.length with ⟨scan, m⟩
  rw [hscan] at hne
  have h₂ := initScriptAlias_of_eq_fakename env (history cfg [longerCall r a]) hv huri hlen hz
  rw [h₂, hscan] at hname hinfo
  cases scan with
  | atEnd => exact hne rfl
  | fail page =>
      simp only [scriptFinish, Request.setScriptType_scriptName, hfresh.1] at hname
      cases hname
  | atSlash i =>
      simp only [scriptFinish, scriptAtSlash_pathInfo, Request.setScriptType_pathInfo,
        hfresh.2] at hinfo
      cases hinfo

/-- The name of a directory is refused, whatever the array holds. -/
lemma initScriptAlias_of_directory {cfg : Config} {env : Env} (buf : Mem) {r : Request}
    {a : Alias} (hlen : a.realname.length ≤ 1009) (hz : 0 ∉ a.realname)
    (hv : cfg.vhostRoot = none) (huri : r.requestUri = a.fakename)
    (hdir : env.stat a.realname = some .directory) :
    initScriptAlias cfg env buf r a
      = { ret := false
          page := some .forbidden
          req := { r.setScriptType [] with scriptName := some r.requestUri }
          scriptBuf := buf.store 0 (a.realname ++ [0]) } := by
  have hstr : (buf.store 0 (a.realname ++ [0])).HasStr 0 a.realname := Mem.HasStr.of_store hz
  have hsize : a.realname.length < sizeofPathname := by
    simp only [sizeofPathname, maxHeaderLength]
    omega
  have hpath : pathString (buf.store 0 (a.realname ++ [0])) = a.realname := hstr.cstr_eq hsize
  rw [initScriptAlias_of_eq_fakename env buf hv huri hlen hz,
    scriptScan_stale_directory hstr hsize hdir _ _ le_rfl]
  simp only [scriptFinish, scriptAtEnd, hpath, hdir, Env.isScript]
  rfl

/-- **Script resolution**: the answer to a fresh request is the same after every history,
and splits the URI, exactly when the loop begins inside the string, or the alias is a
directory, and does not stop inside the root of a virtual host. A line of the configuration
file has at most 1023 characters, so a real name has at most 1009. -/
theorem script_resolution_iff (cfg : Config) (env : Env) (r : Request) (a : Alias)
    (hcall : Call.Matches cfg ⟨env, r, a⟩) (hhead : r.requestUri.head? = some 47)
    (hlen : a.realname.length ≤ 1009) (hroot : 0 ∉ scriptRoot cfg r a)
    (huri : 0 ∉ r.requestUri)
    (hfresh : r.scriptName = none ∧ r.pathInfo = none ∧ r.pathTranslated = none) :
    (HistoryIndependent cfg env r a ∧ ∀ calls, (∀ x ∈ calls, x.Matches cfg) →
        (initScriptAlias cfg env (history cfg calls) r a).NamesUri r.requestUri)
      ↔ BeginsInside cfg env r a ∧ StopsBehindName cfg env r a := by
  obtain ⟨hname, hinfo, htrans⟩ := hfresh
  have hmatch : a.matchesUri r.requestUri = true := hcall.2.1
  by_cases hin : cfg.vhostRoot = none → r.requestUri ≠ a.fakename
  · have hz : 0 ∉ scriptRoot cfg r a ++ r.requestUri.drop a.fakename.length := by
      rw [List.mem_append, not_or]
      exact ⟨hroot, fun h => huri (List.mem_of_mem_drop h)⟩
    have heq := fun buf => initScriptAlias_eq cfg env buf r a hz (realname_length_lt hmatch hin)
    have hiff := resolveScript_namesUri_iff cfg env hmatch ⟨hinfo, htrans⟩
    constructor
    · rintro ⟨-, h⟩
      refine ⟨fun hv => Or.inl (hin hv), hiff.mp ?_⟩
      obtain ⟨buf', hbuf⟩ := heq (history cfg [])
      have h0 := h [] (by simp)
      rw [hbuf] at h0
      exact h0
    · rintro ⟨-, h⟩
      refine ⟨fun h₁ h₂ _ _ => ?_, fun calls _ => ?_⟩
      · obtain ⟨b₁, e₁⟩ := heq (history cfg h₁)
        obtain ⟨b₂, e₂⟩ := heq (history cfg h₂)
        rw [e₁, e₂]
        rfl
      · obtain ⟨buf', hbuf⟩ := heq (history cfg calls)
        rw [hbuf]
        exact hiff.mpr h
  · rw [Classical.not_imp, not_not] at hin
    obtain ⟨hv, hown⟩ := hin
    have hreal : scriptRoot cfg r a = a.realname := by rw [scriptRoot, hv]
    rw [hreal] at hroot
    by_cases hdir : env.stat a.realname = some .directory
    · have heq := fun buf => initScriptAlias_of_directory buf hlen hroot hv hown hdir
      refine iff_of_true ⟨fun h₁ h₂ _ _ => ?_, fun calls _ => ?_⟩ ⟨fun _ => Or.inr hdir, ?_⟩
      · rw [heq, heq]
        rfl
      · rw [heq]
        exact fun h => by simp at h
      · intro k hk
        have hk₁ := hk.1
        have hk₂ := hk.lt_length
        rw [hreal] at hk₂
        omega
    · refine iff_of_false (fun h => ?_) (fun h => ?_)
      · exact not_historyIndependent hcall hhead hlen hroot ⟨hname, hinfo⟩ hv hown hdir h.1
      · exact (h.1 hv).elim (fun hne => hne hown) hdir

/-! ### A script file with an alias of its own -/

/-- A `ScriptAlias` for one script, and one for a directory of scripts. -/
def runConfig : Config where
  aliases := addAlias
    (addAlias (fun _ => []) ⟨str "/run", str "/s/run", .scriptAlias⟩)
    ⟨str "/cgi-bin/", str "/usr/lib/cgi-bin/", .scriptAlias⟩

/-- Both scripts are there. -/
def runEnv : Env where
  stat path :=
    if path = str "/s/run" ∨ path = str "/usr/lib/cgi-bin/a" then some .regular else none
  accessRx _ := true

/-- A call for a URI below an entry. -/
def runCall (uri fakename realname : String) : Call where
  env := runEnv
  req := { fd := 4, httpVersion := .http10, method := .get, requestUri := str uri }
  entry := ⟨str fakename, str realname, .scriptAlias⟩

/-- The path info of `/run` is a piece of the path of the request before it. -/
theorem script_resolution_depends_on_history :
    ¬HistoryIndependent runConfig runEnv (runCall "/run" "/run" "/s/run").req
      (runCall "/run" "/run" "/s/run").entry := by
  intro h
  have hcall : ∀ x ∈ [runCall "/cgi-bin/a" "/cgi-bin/" "/usr/lib/cgi-bin/"],
      x.Matches runConfig := by
    intro x hx
    rw [List.mem_singleton.mp hx]
    exact ⟨by decide, by decide, rfl⟩
  exact absurd (h [] _ (by simp) hcall) (by decide +kernel)

/-- The conditions are met by a script below a directory of scripts. -/
theorem script_resolution_of_script :
    HistoryIndependent runConfig runEnv
        (runCall "/cgi-bin/a" "/cgi-bin/" "/usr/lib/cgi-bin/").req
        (runCall "/cgi-bin/a" "/cgi-bin/" "/usr/lib/cgi-bin/").entry := by
  refine ((script_resolution_iff runConfig runEnv _ _ ?_ ?_ ?_ ?_ ?_ ?_).mpr ⟨?_, ?_⟩).1
  · exact ⟨by decide, by decide, rfl⟩
  · decide
  · decide
  · decide
  · decide
  · exact ⟨rfl, rfl, rfl⟩
  · exact fun _ => Or.inl (by decide)
  · intro k hk
    exact absurd (hk.1.trans_lt hk.lt_length) (by decide)

end Yabwf
