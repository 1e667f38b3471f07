import Yabwf.Clean
import Yabwf.ScriptAlias

/-!
Where a request target leads.

* `uriRoot`: the root that the file name is built from, and the rest of the URI.
* `translateUri_cases`: the four ways in which `translate_uri` ends.
* `Contained`: the file name is the root and the rest of the URI, less a path info, and
  never leaves the root when it is resolved segment by segment.
* `path_containment_iff`: this is so exactly when the rest is not `..` or `/..`, scripts
  that end at the root of a virtual host apart, and the loop for scripts does not stop
  inside that root.
-/

namespace Yabwf

open Memory Lexical

/-! ### The root and the rest -/

/-- The root of the file name and what the URI adds to it. -/
def uriRoot (cfg : Config) (r : Request) : Option (Bytes × Bytes) :=
  let uri := r.requestUri
  match findAlias cfg.aliases uri with
  | some a =>
      some (if a.type = .scriptAlias then scriptRoot cfg r a else a.realname,
        uri.drop a.fakename.length)
  | none =>
      match tildeDir cfg uri with
      | some dir =>
          (cfg.getHomeDir ((uri.drop 2).takeWhile (· != 47))).map fun home =>
            (home ++ str "/" ++ dir, (uri.drop 2).dropWhile (· != 47))
      | none =>
          match cfg.vhostRoot with
          | some v =>
              some (v ++ str "/" ++ r.localIpAddr ++ str "/" ++ r.host.getD [] ++ str "/htdocs",
                uri)
          | none =>
              cfg.documentRoot.map fun d =>
                (if cfg.virtualhost then d ++ str "/" ++ r.localIpAddr else d, uri)

/-- The rest of a URI begins at a segment: behind a slash, at a slash, or at the end. -/
def BeginsAtSegment (uri rest : Bytes) : Prop :=
  ∃ f, uri = f ++ rest ∧ (f.getLast? = some 47 ∨ rest = [] ∨ rest.head? = some 47)

lemma beginsAtSegment_of_matchesUri {a : Alias} {uri : Bytes} (h : a.matchesUri uri = true) :
    BeginsAtSegment uri (uri.drop a.fakename.length) := by
  simp only [Alias.matchesUri, Bool.and_eq_true, Bool.or_eq_true, beq_iff_eq] at h
  obtain ⟨hpre, hseg⟩ := h
  refine ⟨a.fakename, ?_, ?_⟩
  · exact (List.prefix_iff_eq_append.mp (List.isPrefixOf_iff_prefix.mp hpre)).symm
  · rcases hseg with (hlast | hnil) | hslash
    · exact Or.inl hlast
    · exact Or.inr (Or.inl (List.head?_eq_none_iff.mp hnil))
    · exact Or.inr (Or.inr hslash)

lemma findAlias_matchesUri {t : AliasTable} {uri : Bytes} {a : Alias}
    (h : findAlias t uri = some a) : a.matchesUri uri = true :=
  List.find?_some (p := fun a => Alias.matchesUri a uri) h

/-- A user's directory ends where the rest begins. -/
lemma beginsAtSegment_user {uri : Bytes} :
    BeginsAtSegment uri ((uri.drop 2).dropWhile (· != 47)) := by
  refine ⟨uri.take 2 ++ (uri.drop 2).takeWhile (· != 47), ?_, ?_⟩
  · rw [List.append_assoc, List.takeWhile_append_dropWhile, List.take_append_drop]
  · cases h : (uri.drop 2).dropWhile (· != 47) with
    | nil => exact Or.inr (Or.inl rfl)
    | cons b s =>
        have hb := List.head_dropWhile_not (· != 47) (l := uri.drop 2) (by rw [h]; simp)
        simp only [h, List.head_cons, bne_eq_false_iff_eq] at hb
        exact Or.inr (Or.inr (by rw [hb]; rfl))

/-! ### The exits of `translate_uri` -/

lemma translateFit_cases (cfg : Config) (buf : Mem) (r : Request) (need : ℕ) (path : Bytes) :
    translateFit cfg buf r need path = translateTail cfg buf r path ∨
      ∃ page, translateFit cfg buf r need path =
        { ret := false, page := some page, req := r, scriptBuf := buf } := by
  rw [translateFit]
  split_ifs with hneed
  · exact Or.inr ⟨_, rfl⟩
  · exact Or.inl rfl

/-- `translate_uri` resolves a script, answers an `Alias`, goes through its tail, or
fails and leaves the request as it is. -/
lemma translateUri_cases (cfg : Config) (env : Env) (buf : Mem) (r : Request) :
    (∃ a, findAlias cfg.aliases r.requestUri = some a ∧ a.type = .scriptAlias ∧
        translateUri cfg env buf r = initScriptAlias cfg env buf r a) ∨
    (∃ a, findAlias cfg.aliases r.requestUri = some a ∧ a.type = .alias ∧
        a.realname.length + r.requestUri.length - a.fakename.length + 1 ≤ sizeofPathname ∧
        translateUri cfg env buf r =
          { ret := true
            req := { r with
              pathname := some (a.realname ++ r.requestUri.drop a.fakename.length) }
            scriptBuf := buf }) ∨
    (∃ root rest, findAlias cfg.aliases r.requestUri = none ∧
        uriRoot cfg r = some (root, rest) ∧ BeginsAtSegment r.requestUri rest ∧
        translateUri cfg env buf r = translateTail cfg buf r (root ++ rest)) ∨
    ∃ page, translateUri cfg env buf r =
      { ret := false, page := some page, req := r, scriptBuf := buf } := by
  simp only [translateUri, uriRoot]
  by_cases hhead : r.requestUri.head? ≠ some 47
  · exact Or.inr (Or.inr (Or.inr ⟨_, if_pos hhead⟩))
  rw [if_neg hhead]
  rw [not_not] at hhead
  have hwhole : BeginsAtSegment r.requestUri r.requestUri :=
    ⟨[], rfl, Or.inr (Or.inr hhead)⟩
  cases hfind : findAlias cfg.aliases r.requestUri with
  | some a =>
      simp only
      by_cases hscript : a.type = .scriptAlias
      · exact Or.inl ⟨a, rfl, hscript, if_pos hscript⟩
      rw [if_neg hscript]
      split_ifs with hfit hredirect hpost
      · exact Or.inr (Or.inr (Or.inr ⟨_, rfl⟩))
      · exact Or.inr (Or.inr (Or.inr ⟨_, rfl⟩))
      · exact Or.inr (Or.inr (Or.inr ⟨_, rfl⟩))
      · refine Or.inr (Or.inl ⟨a, rfl, ?_, not_lt.mp hfit, rfl⟩)
        rcases htype : a.type with _ | _ | _
        · rfl
        · exact absurd htype hscript
        · exact absurd htype hredirect
  | none =>
      simp only
      refine Or.inr (Or.inr ?_)
      cases tildeDir cfg r.requestUri with
      | some dir =>
          simp only
          split_ifs with hempty
          · exact Or.inr ⟨_, rfl⟩
          cases cfg.getHomeDir ((r.requestUri.drop 2).takeWhile (· != 47)) with
          | none => exact Or.inr ⟨_, rfl⟩
          | some home =>
              exact (translateFit_cases cfg buf r _ _).imp
                (fun h => ⟨_, _, trivial, rfl, beginsAtSegment_user, h⟩) id
      | none =>
          cases cfg.vhostRoot with
          | some v =>
              exact (translateFit_cases cfg buf r _ _).imp
                (fun h => ⟨_, _, trivial, rfl, hwhole, h⟩) id
          | none =>
              cases cfg.documentRoot with
              | none => exact Or.inr ⟨_, rfl⟩
              | some d =>
                  by_cases hvirtual : cfg.virtualhost = true
                  · simp only [hvirtual, if_true]
                    exact (translateFit_cases cfg buf r _ _).imp
                      (fun h => ⟨_, _, trivial, rfl, hwhole, h⟩) id
                  · simp only [if_neg hvirtual]
                    exact (translateFit_cases cfg buf r _ _).imp
                      (fun h => ⟨_, _, trivial, rfl, hwhole, h⟩) id

/-! ### Resolved scripts -/

/-- The loop reaches the end of a string with only directories in front of its slashes. -/
lemma stat_of_scanString_atEnd {env : Env} (s path : Bytes)
    (h : scanString env path s = .atEnd) :
    ∀ j, path.length ≤ j → (path ++ s)[j]? = some 47 →
      env.stat ((path ++ s).take j) = some .directory := by
  induction s generalizing path with
  | nil =>
      intro j hj hslash
      obtain ⟨hlt, -⟩ := List.getElem?_eq_some_iff.mp hslash
      rw [List.append_nil] at hlt
      omega
  | cons b s ih =>
      intro j hj hslash
      have hnext := ih (path ++ [b])
      rw [List.append_assoc, List.singleton_append, List.length_append,
        List.length_singleton] at hnext
      rw [scanString] at h
      rcases hj.lt_or_eq with hlt | rfl
      · refine hnext ?_ j hlt hslash
        by_cases hb : b = 47
        · rw [if_pos hb] at h
          cases hstat : env.stat path with
          | none =>
              rw [hstat] at h
              cases h
          | some kind =>
              rw [hstat] at h
              cases kind with
              | directory => exact h
              | regular => cases hs : env.isScript path <;> simp [hs] at h
              | other => cases hs : env.isScript path <;> simp [hs] at h
        · rwa [if_neg hb] at h
      · have hb : b = 47 := by simpa using hslash
        rw [if_pos hb] at h
        rw [List.take_left]
        cases hstat : env.stat path with
        | none =>
            rw [hstat] at h
            cases h
        | some kind =>
            rw [hstat] at h
            cases kind with
            | directory => rfl
            | regular => cases hs : env.isScript path <;> simp [hs] at h
            | other => cases hs : env.isScript path <;> simp [hs] at h

/-- Behind the string the loop fails, reaches an end, or stops further behind. -/
lemma scriptScan_behind (env : Env) {s : Bytes} (m : Mem) :
    ∀ fuel i : ℕ, s.length ≤ i → (∃ page m', scriptScan env fuel m i = (.fail page, m'))
      ∨ scriptScan env fuel m i = (.atEnd, m)
      ∨ ∃ j, s.length < j ∧ scriptScan env fuel m i = (.atSlash j, m) := by
  intro fuel
  induction fuel with
  | zero => exact fun _ _ => Or.inr (Or.inl rfl)
  | succ fuel ih =>
      intro i hi
      have hnext := ih (i + 1) (by omega)
      rw [scriptScan]
      by_cases hslash : m (i + 1) = 47
      · simp only [if_pos hslash]
        cases env.stat (pathString (m.store (i + 1) [0])) with
        | none => exact Or.inl ⟨_, _, rfl⟩
        | some kind =>
            cases kind with
            | directory => exact hnext
            | regular =>
                cases env.isScript (pathString (m.store (i + 1) [0]))
                · exact Or.inl ⟨_, _, rfl⟩
                · exact Or.inr (Or.inr ⟨i + 1, by omega, rfl⟩)
            | other =>
                cases env.isScript (pathString (m.store (i + 1) [0]))
                · exact Or.inl ⟨_, _, rfl⟩
                · exact Or.inr (Or.inr ⟨i + 1, by omega, rfl⟩)
      · rw [if_neg hslash]
        split_ifs
        · exact Or.inr (Or.inl rfl)
        · exact hnext

lemma scriptAtEnd_pathname {env : Env} {buf : Mem} {r : Request} {path : Bytes}
    (h : (scriptAtEnd env buf r path).ret = true) :
    (scriptAtEnd env buf r path).req.pathname = some path := by
  simp only [scriptAtEnd] at h ⊢
  cases hstat : env.stat path with
  | none => simp [hstat] at h
  | some kind => cases hs : env.isScript path <;> simp_all

lemma scriptAtSlash_pathname {cfg : Config} {buf : Mem} {r : Request} {path pathInfo : Bytes}
    (h : (scriptAtSlash cfg buf r path pathInfo).ret = true) :
    (scriptAtSlash cfg buf r path pathInfo).req.pathname = some path
      ∧ (scriptAtSlash cfg buf r path pathInfo).req.pathInfo = some pathInfo := by
  simp only [scriptAtSlash] at h ⊢
  cases ht : r.pathTranslated with
  | some p => exact ⟨rfl, rfl⟩
  | none =>
      cases hp : pathTranslation cfg pathInfo with
      | inl page => simp [ht, hp] at h
      | inr p => exact ⟨rfl, rfl⟩

/-- A resolved script's file name is the whole path, with only directories in front of
the slashes that the loop sees, or the path in front of the slash where it stops. -/
lemma initScriptAlias_pathname {cfg : Config} {env : Env} {buf : Mem} {r : Request} {a : Alias}
    (hz : 0 ∉ scriptRoot cfg r a ++ r.requestUri.drop a.fakename.length)
    (hret : (initScriptAlias cfg env buf r a).ret = true) :
    let full := scriptRoot cfg r a ++ r.requestUri.drop a.fakename.length
    ((initScriptAlias cfg env buf r a).req.pathname = some full ∧
        ∀ j, a.realname.length + 1 ≤ j → full[j]? = some 47 →
          env.stat (full.take j) = some .directory) ∨
      ∃ k, StopsAt env full (a.realname.length + 1) k ∧
        (initScriptAlias cfg env buf r a).req.pathname = some (full.take k) ∧
        (initScriptAlias cfg env buf r a).req.pathInfo = some (full.drop k) := by
  intro full
  by_cases hin : a.realname.length < full.length
  · obtain ⟨buf', heq⟩ := initScriptAlias_eq cfg env buf r a hz hin
    have hstart : (full.take (a.realname.length + 1)).length = a.realname.length + 1 :=
      List.length_take_of_le hin
    rw [heq] at hret ⊢
    simp only [resolveScript] at hret ⊢
    by_cases hfit : sizeofPathname < full.length + 1
    · rw [if_pos hfit] at hret
      cases hret
    rw [if_neg hfit] at hret ⊢
    cases hscan : scanString env (full.take (a.realname.length + 1))
        (full.drop (a.realname.length + 1)) with
    | fail page =>
        rw [hscan] at hret
        cases hret
    | atEnd =>
        rw [hscan] at hret
        refine Or.inl ⟨scriptAtEnd_pathname hret, fun j hj => ?_⟩
        have hdirs := stat_of_scanString_atEnd _ _ hscan j (by omega)
        rwa [List.take_append_drop] at hdirs
    | atSlash k =>
        rw [hscan] at hret
        rw [scanString_eq_atSlash_iff, List.take_append_drop, hstart] at hscan
        exact Or.inr ⟨k, hscan, scriptAtSlash_pathname hret⟩
  · -- the loop begins behind the string, which it does not change
    have hsize : (scriptRoot cfg r a).length + (r.requestUri.drop a.fakename.length).length
        = full.length := List.length_append.symm
    simp only [initScriptAlias, hsize] at hret ⊢
    by_cases hfit : sizeofPathname < full.length + 1
    · rw [if_pos hfit] at hret
      cases hret
    rw [if_neg hfit] at hret ⊢
    have hstr : (buf.store 0 (full ++ [0])).HasStr 0 full := Mem.HasStr.of_store hz
    refine Or.inl ⟨?_, fun j hj hslash => ?_⟩
    · rcases scriptScan_behind env (buf.store 0 (full ++ [0])) (sizeofPathname + 1)
        a.realname.length (not_lt.mp hin) with ⟨page, m', hscan⟩ | hscan | ⟨j, hj, hscan⟩
      · rw [hscan, scriptFinish] at hret
        cases hret
      · have hpath : pathString (buf.store 0 (full ++ [0])) = full :=
          hstr.cstr_eq (by omega)
        rw [hscan, scriptFinish, hpath] at hret ⊢
        exact scriptAtEnd_pathname hret
      · have hpath : pathString ((buf.store 0 (full ++ [0])).store j [0]) = full :=
          (hstr.store_of_gt (by omega) [0]).cstr_eq (by omega)
        rw [hscan] at hret ⊢
        simp only [scriptFinish, hpath] at hret ⊢
        exact (scriptAtSlash_pathname hret).1
    · obtain ⟨hlt, -⟩ := List.getElem?_eq_some_iff.mp hslash
      omega

/-! ### Containment -/

/-- The strings of the configuration and the request end where they end. -/
structure CStrings (cfg : Config) (r : Request) : Prop where
  realname : ∀ a, findAlias cfg.aliases r.requestUri = some a → 0 ∉ a.realname
  vhostRoot : ∀ v, cfg.vhostRoot = some v → 0 ∉ v
  localIpAddr : 0 ∉ r.localIpAddr
  host : 0 ∉ r.host.getD []

/-- The file name is the root and the rest of the URI, less the path info that has been
split off, and its segments never lead above the root. -/
def Contained (cfg : Config) (r : Request) (t : Translation) : Prop :=
  ∃ root rest rem, uriRoot cfg r = some (root, rest) ∧
    t.req.pathname = some (root ++ rem) ∧
    (rem = rest ∨ ∃ info, t.req.pathInfo = some info ∧ rest = rem ++ info) ∧
    Within 0 (moves rem)

/-- The rest of the URI is not `..`, nor `/..` unless it is the path info of a script that
is itself the root of a virtual host's scripts, and no slash of that root stands behind
a script. -/
def StaysBelow (cfg : Config) (env : Env) (r : Request) : Prop :=
  ∀ root rest, uriRoot cfg r = some (root, rest) →
    rest ≠ str ".." ∧
    (rest = str "/.." → ∃ a, findAlias cfg.aliases r.requestUri = some a ∧
      a.type = .scriptAlias ∧ cfg.vhostRoot ≠ none ∧ env.isScript root = true) ∧
    ∀ a k, findAlias cfg.aliases r.requestUri = some a → a.type = .scriptAlias →
      ¬StopsAt env root (a.realname.length + 1) k

/-- A rest that is appended as it is. -/
lemma contained_iff_of_eq {cfg : Config} {r : Request} {t : Translation} {u root rest : Bytes}
    (huri : r.requestUri = cleanPathname u) (hroot : uriRoot cfg r = some (root, rest))
    (hseg : BeginsAtSegment r.requestUri rest) (hpath : t.req.pathname = some (root ++ rest)) :
    Contained cfg r t ↔ rest ≠ str ".." ∧ rest ≠ str "/.." := by
  obtain ⟨f, hf, hbegin⟩ := hseg
  have hclean : cleanPathname u = f ++ (rest ++ []) := by rw [← huri, List.append_nil, hf]
  rw [← within_iff_of_clean hclean hbegin (Or.inl rfl)]
  constructor
  · rintro ⟨root', rest', rem, hroot', hpath', -, hwithin⟩
    rw [hroot, Option.some.injEq, Prod.mk.injEq] at hroot'
    rw [hpath, ← hroot'.1, Option.some.injEq] at hpath'
    rwa [List.append_cancel_left hpath']
  · intro hwithin
    exact ⟨root, rest, rest, hroot, hpath, Or.inl rfl, hwithin⟩

/-- A rest that is cut in front of a slash stays below the root. -/
lemma contained_of_cut {cfg : Config} {r : Request} {t : Translation} {u root rest rem : Bytes}
    {info : Bytes} (huri : r.requestUri = cleanPathname u)
    (hroot : uriRoot cfg r = some (root, rest)) (hseg : BeginsAtSegment r.requestUri rest)
    (hpath : t.req.pathname = some (root ++ rem)) (hinfo : t.req.pathInfo = some info)
    (hrest : rest = rem ++ info) (hslash : info.head? = some 47) : Contained cfg r t := by
  obtain ⟨f, hf, hbegin⟩ := hseg
  obtain ⟨i, rfl⟩ : ∃ i, info = 47 :: i := by
    cases info with
    | nil => cases hslash
    | cons b i => exact ⟨i, by simpa using hslash⟩
  have hclean : cleanPathname u = f ++ (rem ++ 47 :: i) := by rw [← huri, hf, hrest]
  have hbegin' : f.getLast? = some 47 ∨ rem = [] ∨ rem.head? = some 47 := by
    rcases hbegin with h | h | h
    · exact Or.inl h
    · rw [hrest] at h
      exact Or.inr (Or.inl (List.append_eq_nil_iff.mp h).1)
    · cases rem with
      | nil => exact Or.inr (Or.inl rfl)
      | cons b rem =>
          rw [hrest, List.cons_append, List.head?_cons] at h
          exact Or.inr (Or.inr h)
  refine ⟨root, rest, rem, hroot, hpath, Or.inr ⟨_, hinfo, hrest⟩, ?_⟩
  rw [within_iff_of_clean hclean hbegin' (Or.inr rfl)]
  constructor
  · rintro rfl
    rcases hbegin' with h | h | h
    · obtain ⟨g, rfl⟩ := List.getLast?_eq_some_iff.mp h
      exact cleanPathname_ne_dots g i (by rw [hclean]; simp [str])
    · exact absurd h (by decide)
    · exact absurd h (by decide)
  · rintro rfl
    exact cleanPathname_ne_dots f i (by rw [hclean]; simp [str])

/-- The root of a script is the directory of its alias, below that of the host if it has one. -/
lemma length_scriptRoot (cfg : Config) (r : Request) (a : Alias) :
    (cfg.vhostRoot ≠ none → a.realname.length < (scriptRoot cfg r a).length) ∧
      (cfg.vhostRoot = none → a.realname.length = (scriptRoot cfg r a).length) := by
  rw [scriptRoot]
  cases cfg.vhostRoot with
  | none => simp
  | some v =>
      simp only [List.length_append]
      have : (str "/").length = 1 := rfl
      exact ⟨fun _ => by omega, fun h => by cases h⟩

/-- What `StaysBelow` says of a script. -/
lemma staysBelow_iff_of_script {cfg : Config} {env : Env} {r : Request} {a : Alias}
    (hfind : findAlias cfg.aliases r.requestUri = some a) (htype : a.type = .scriptAlias) :
    StaysBelow cfg env r ↔ r.requestUri.drop a.fakename.length ≠ str ".." ∧
      (r.requestUri.drop a.fakename.length = str "/.." →
        cfg.vhostRoot ≠ none ∧ env.isScript (scriptRoot cfg r a) = true) ∧
      ∀ k, ¬StopsAt env (scriptRoot cfg r a) (a.realname.length + 1) k := by
  have huriRoot : uriRoot cfg r
      = some (scriptRoot cfg r a, r.requestUri.drop a.fakename.length) := by
    simp only [uriRoot, hfind, if_pos htype]
  rw [StaysBelow, huriRoot, hfind]
  constructor
  · intro h
    obtain ⟨h₁, h₂, h₃⟩ := h _ _ rfl
    exact ⟨h₁, fun hd => (h₂ hd).elim fun _ hb => hb.2.2, fun k => h₃ a k rfl htype⟩
  · rintro ⟨h₁, h₂, h₃⟩ root rest heq
    obtain ⟨rfl, rfl⟩ := Prod.mk.inj (Option.some.inj heq)
    refine ⟨h₁, fun hd => ⟨a, rfl, htype, h₂ hd⟩, fun b k hb _ => ?_⟩
    rw [← Option.some.inj hb]
    exact h₃ k

/-- Containment of a resolved script. -/
lemma contained_iff_of_script {cfg : Config} {env : Env} {buf : Mem} {r : Request} {a : Alias}
    {u : Bytes} (huri : r.requestUri = cleanPathname u)
    (hz : 0 ∉ scriptRoot cfg r a ++ r.requestUri.drop a.fakename.length)
    (hfind : findAlias cfg.aliases r.requestUri = some a) (htype : a.type = .scriptAlias)
    (hret : (initScriptAlias cfg env buf r a).ret = true) :
    Contained cfg r (initScriptAlias cfg env buf r a) ↔ StaysBelow cfg env r := by
  set root := scriptRoot cfg r a with hroot
  set rest := r.requestUri.drop a.fakename.length with hrest
  have huriRoot : uriRoot cfg r = some (root, rest) := by
    simp only [uriRoot, hfind, if_pos htype, ← hroot, ← hrest]
  have hseg : BeginsAtSegment r.requestUri rest :=
    beginsAtSegment_of_matchesUri (findAlias_matchesUri hfind)
  rw [staysBelow_iff_of_script hfind htype]
  simp only [← hroot, ← hrest]
  obtain ⟨hlonger, hequal⟩ := length_scriptRoot cfg r a
  rw [← hroot] at hlonger hequal
  have hcases := initScriptAlias_pathname hz hret
  simp only [← hroot, ← hrest] at hcases
  rcases hcases with ⟨hpath, hdirs⟩ | ⟨k, hk, hpath, hinfo⟩
  · -- the loop has seen the whole path
    rw [contained_iff_of_eq huri huriRoot hseg hpath]
    refine and_congr_right fun _ => ⟨fun hne => ⟨fun h => absurd h hne, fun k hk => ?_⟩, ?_⟩
    · have hd := hdirs k hk.1 (by rw [List.getElem?_append_left hk.lt_length]; exact hk.2.1)
      rw [List.take_append_of_le_length hk.lt_length.le, stat_of_isScript hk.2.2.1] at hd
      cases hd
    · rintro ⟨hscript, -⟩ hdots
      obtain ⟨hv, hs⟩ := hscript hdots
      have hd := hdirs root.length (hlonger hv) (by rw [hdots]; simp [str])
      rw [List.take_left, stat_of_isScript hs] at hd
      cases hd
  · by_cases hin : k < root.length
    · -- a stop inside the root leaves a file name that is too short
      refine iff_of_false ?_ fun h => h.2.2 k ((stopsAt_append_iff hin).mp hk)
      rintro ⟨root', rest', rem, hroot', hpath', -⟩
      rw [huriRoot, Option.some.injEq, Prod.mk.injEq] at hroot'
      rw [hpath, ← hroot'.1, Option.some.injEq] at hpath'
      have := congrArg List.length hpath'
      simp only [List.length_take, List.length_append] at this
      omega
    · have hout : root.length ≤ k := not_lt.mp hin
      have hklen := hk.lt_length
      rw [List.length_append] at hklen
      rw [List.take_append, List.take_of_length_le hout] at hpath
      rw [List.drop_append, List.drop_eq_nil_of_le hout, List.nil_append] at hinfo
      have hget : rest[k - root.length]? = some 47 := by
        rw [← List.getElem?_append_right hout]
        exact hk.2.1
      refine iff_of_true (contained_of_cut huri huriRoot hseg hpath hinfo
        (List.take_append_drop _ _).symm ?_) ⟨?_, ?_, fun j hj => ?_⟩
      · rw [List.head?_drop, hget]
      · intro hdots
        rw [hdots] at hget
        have : k - root.length < 2 := by
          rw [hdots] at hklen
          have : (str "..").length = 2 := rfl
          omega
        interval_cases k - root.length
        · exact absurd hget (by decide)
        · exact absurd hget (by decide)
      · intro hdots
        have hzero : k = root.length := by
          rw [hdots] at hget hklen
          have : k - root.length < 3 := by
            have : (str "/..").length = 3 := rfl
            omega
          interval_cases hx : k - root.length
          · omega
          · exact absurd hget (by decide)
          · exact absurd hget (by decide)
        refine ⟨fun hv => ?_, ?_⟩
        · have h1 := hk.1
          have h2 := hequal hv
          omega
        · have hs := hk.2.2.1
          rwa [hzero, List.take_left] at hs
      · -- the loop stops only once
        have hj' := (stopsAt_append_iff (t := rest) hj.lt_length).mpr hj
        have hjk : j < k := hj.lt_length.trans_le hout
        have hd := hk.2.2.2 j hj.1 hjk hj'.2.1
        rw [stat_of_isScript hj'.2.2.1] at hd
        cases hd

/-- Outside of scripts only the two endings matter. -/
lemma staysBelow_iff_of_no_script {cfg : Config} {env : Env} {r : Request} {root rest : Bytes}
    (hroot : uriRoot cfg r = some (root, rest))
    (h : ∀ a, findAlias cfg.aliases r.requestUri = some a → a.type ≠ .scriptAlias) :
    StaysBelow cfg env r ↔ rest ≠ str ".." ∧ rest ≠ str "/.." := by
  rw [StaysBelow, hroot]
  constructor
  · intro hbelow
    obtain ⟨h₁, h₂, -⟩ := hbelow root rest rfl
    refine ⟨h₁, fun hdots => ?_⟩
    obtain ⟨a, ha, htype, -⟩ := h₂ hdots
    exact h a ha htype
  · rintro ⟨h₁, h₂⟩ root' rest' heq
    obtain ⟨rfl, rfl⟩ := Prod.mk.inj (Option.some.inj heq)
    exact ⟨h₁, fun hdots => absurd hdots h₂, fun a k ha htype => absurd htype (h a ha)⟩

/-! ### From the raw target -/

/-- Decoding makes no zero byte. -/
lemma zero_notMem_unescapeLoop (wantQuery : Bool) (s : Bytes) (hs : 0 ∉ s) :
    0 ∉ (unescapeLoop wantQuery s).2.1 := by
  fun_induction unescapeLoop wantQuery s with
  | case1 => simp
  | case2 => simp
  | case3 c d s b hb r ih =>
      have hb0 : b ≠ 0 := by
        rintro h0
        rw [h0] at hb
        exact hb (Or.inl (by decide))
      simp only [List.mem_cons, not_or] at hs ⊢
      exact ⟨hb0.symm, ih hs.2.2.2⟩
  | case4 => simp
  | case5 => simp
  | case6 => simp
  | case7 b s _ _ _ _ r ih =>
      simp only [List.mem_cons, not_or] at hs ⊢
      exact ⟨hs.1, ih hs.2⟩

lemma mem_of_mem_cleanLoop {b : UInt8} (flag : Bool) (p : Bytes) (h : b ∈ cleanLoop flag p) :
    b ∈ p := by
  fun_induction cleanLoop flag p with
  | case1 => exact h
  | case2 p ih => exact List.mem_cons_of_mem _ (ih h)
  | case3 p ih => exact List.mem_cons_of_mem _ (List.mem_cons_of_mem _ (ih h))
  | case4 p ih =>
      exact List.mem_cons_of_mem _ (List.mem_cons_of_mem _ (List.mem_cons_of_mem _ (ih h)))
  | case5 flag p _ _ _ ih =>
      rcases List.mem_cons.mp h with rfl | h
      · exact List.mem_cons_self
      · exact List.mem_cons_of_mem _ (ih h)
  | case6 flag c p _ _ _ _ ih =>
      rcases List.mem_cons.mp h with rfl | h
      · exact List.mem_cons_self
      · exact List.mem_cons_of_mem _ (ih h)

/-- **Path containment**: the file name that a decoded and cleaned target is translated to
stays below its root exactly when the rest of the URI does not end it with `..`. -/
theorem path_containment_iff (cfg : Config) (env : Env) (buf : Mem) (r : Request)
    {raw u : Bytes} {query : Option Bytes} (hraw : 0 ∉ raw)
    (hdecode : unescapeUri raw true = (true, u, query))
    (huri : r.requestUri = cleanPathname u) (hstrings : CStrings cfg r)
    (hret : (translateUri cfg env buf r).ret = true) :
    Contained cfg r (translateUri cfg env buf r) ↔ StaysBelow cfg env r := by
  have hz : 0 ∉ r.requestUri := by
    intro h0
    rw [huri] at h0
    have hu := zero_notMem_unescapeLoop true raw hraw
    rw [← unescapeUri, hdecode] at hu
    exact hu (mem_of_mem_cleanLoop _ _ h0)
  rcases translateUri_cases cfg env buf r with ⟨a, hfind, htype, heq⟩ | ⟨a, hfind, htype, -, heq⟩
    | ⟨root, rest, hfind, hroot, hseg, heq⟩ | ⟨page, heq⟩
  · rw [heq] at hret ⊢
    refine contained_iff_of_script huri ?_ hfind htype hret
    rw [List.mem_append, not_or]
    refine ⟨?_, fun h => hz (List.mem_of_mem_drop h)⟩
    have hslash : 0 ∉ str "/" := by decide
    rw [scriptRoot]
    cases hv : cfg.vhostRoot with
    | none => exact hstrings.realname a hfind
    | some v =>
        simp only [List.mem_append, not_or]
        exact ⟨⟨⟨⟨⟨⟨hstrings.vhostRoot v hv, hslash⟩, hstrings.localIpAddr⟩, hslash⟩,
          hstrings.host⟩, hslash⟩, hstrings.realname a hfind⟩
  · have hroot : uriRoot cfg r
        = some (a.realname, r.requestUri.drop a.fakename.length) := by
      simp only [uriRoot, hfind, htype]
      rfl
    rw [heq, contained_iff_of_eq huri hroot
      (beginsAtSegment_of_matchesUri (findAlias_matchesUri hfind)) rfl,
      staysBelow_iff_of_no_script hroot]
    intro b hb
    rw [hfind] at hb
    rw [← Option.some.inj hb, htype]
    decide
  · have hpath : (translateTail cfg buf r (root ++ rest)).req.pathname = some (root ++ rest) := by
      simp only [translateTail]
      split_ifs <;> rfl
    rw [heq, contained_iff_of_eq huri hroot hseg hpath, staysBelow_iff_of_no_script hroot]
    intro b hb
    rw [hfind] at hb
    cases hb
  · rw [heq] at hret
    cases hret

/-! ### A target that ends in two dots -/

/-- A server with a document root and nothing else. -/
def wwwConfig : Config where
  documentRoot := some (str "/www")

/-- A request for a decoded and cleaned target. -/
def wwwRequest (uri : String) : Request where
  fd := 4
  httpVersion := .http10
  method := .get
  requestUri := cleanPathname (str uri)

/-- The target `/%2e%2e` is translated to `/www/..`. -/
theorem path_containment_fails :
    unescapeUri (str "/%2e%2e") true = (true, str "/..", none) ∧
      (translateUri wwwConfig {} (fun _ => 0) (wwwRequest "/..")).ret = true ∧
      ¬Contained wwwConfig (wwwRequest "/..")
        (translateUri wwwConfig {} (fun _ => 0) (wwwRequest "/..")) := by
  refine ⟨by decide, by decide, ?_⟩
  rintro ⟨root, rest, rem, hroot, hpath, -, hwithin⟩
  have hroot' : uriRoot wwwConfig (wwwRequest "/..") = some (str "/www", str "/..") := by decide
  have hpath' : (translateUri wwwConfig {} (fun _ => 0) (wwwRequest "/..")).req.pathname
      = some (str "/www" ++ str "/..") := by decide
  rw [hroot', Option.some.injEq, Prod.mk.injEq] at hroot
  rw [hpath', ← hroot.1, Option.some.injEq] at hpath
  rw [← List.append_cancel_left hpath,
    show moves (str "/..") = [Move.stay, Move.up] from by decide] at hwithin
  exact hwithin

/-- The target `/a/../b` is translated to `/www/a/b`. -/
theorem path_containment_of_page :
    Contained wwwConfig (wwwRequest "/a/../b")
      (translateUri wwwConfig {} (fun _ => 0) (wwwRequest "/a/../b")) := by
  have hdecode : unescapeUri (str "/a/../b") true = (true, str "/a/../b", none) := by decide
  refine (path_containment_iff wwwConfig {} (fun _ => 0) (wwwRequest "/a/../b") (by decide)
    hdecode rfl ⟨?_, ?_, by decide, by decide⟩ (by decide)).mpr ?_
  · intro a ha
    cases ha
  · intro v hv
    cases hv
  · intro root rest h
    have hroot : uriRoot wwwConfig (wwwRequest "/a/../b") = some (str "/www", str "/a/b") := by
      decide
    rw [hroot, Option.some.injEq, Prod.mk.injEq] at h
    obtain ⟨rfl, rfl⟩ := h
    refine ⟨by decide, fun h => absurd h (by decide), fun a k ha => ?_⟩
    cases ha

end Yabwf
