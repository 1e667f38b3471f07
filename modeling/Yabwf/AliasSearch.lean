import Mathlib.Data.List.TakeWhile
import Yabwf.Containment
import Yabwf.Lib.Buckets
import Yabwf.Lib.Run

/-!
Where `alias.c` looks for an alias, and which ones it has.

* `addAliasCall_eq`: `add_alias` with its checks and its loop; `aliases_unique_iff`: no name is in
  the table twice, exactly if no call is for the name of the last entry of its bucket.
* `aliasTable`, `linearSearch`: the table after calls of `add_alias`, and the search that it
  speeds up.
* `findAlias_linear_iff`: both find the same, unless the alias `/` is the earliest one that
  matches and lies in another bucket.
* `rootTranslation`, `uriTranslation`: the translation of the path info in which an alias has to
  match as it has to for a URI; `path_translated_iff`: when `init_script_alias` agrees with it.
-/

namespace Yabwf

open Memory

/-! ### The bucket of a name -/

/-- The table after calls of `add_alias` in order. -/
def aliasTable (as : List Alias) : AliasTable := as.foldl addAlias fun _ => []

/-- The earliest of the aliases that matches. -/
def linearSearch (as : List Alias) (uri : Bytes) : Option Alias :=
  as.find? fun a => a.matchesUri uri

lemma aliasTable_eq (as : List Alias) :
    aliasTable as = Buckets.table Alias.fakename getAliasHashValue as := rfl

/-! ### Names that are added again -/

/-- The loop of `add_alias` at an entry, with the entries behind it: whether it returns. -/
def addAliasLoop (fakename : Bytes) : Alias → List Alias → Bool
  | _, [] => false
  | old, next :: rest => old.fakename == fakename || addAliasLoop fakename next rest

/-- A call of `add_alias`; `none` is the end of the server. -/
def addAliasCall (t : AliasTable) (a : Alias) : Option AliasTable :=
  if a.fakename = [] ∨ a.realname = [] then none
  else
    let hash := getAliasHashValue a.fakename
    match t hash with
    | [] => some fun h => if h = hash then [a] else t h
    | old :: rest =>
        if addAliasLoop a.fakename old rest then some t
        else some fun h => if h = hash then old :: rest ++ [a] else t h

lemma addAliasLoop_eq (fakename : Bytes) (old : Alias) (rest : List Alias) :
    addAliasLoop fakename old rest
      = (old :: rest).dropLast.any fun b => b.fakename == fakename := by
  induction rest generalizing old with
  | nil => rfl
  | cons next rest ih =>
      rw [addAliasLoop, ih, List.dropLast_cons_of_ne_nil (List.cons_ne_nil next rest),
        List.any_cons]

/-- A call that returns does to the table what `addAlias` does. -/
lemma addAliasCall_eq (t : AliasTable) (a : Alias) :
    addAliasCall t a
      = if a.fakename = [] ∨ a.realname = [] then none else some (addAlias t a) := by
  have happend (chain : List Alias) (hchain : t (getAliasHashValue a.fakename) = chain) :
      (fun h => if h = getAliasHashValue a.fakename then chain ++ [a] else t h)
        = fun h => if h = getAliasHashValue a.fakename then t h ++ [a] else t h := by
    refine funext fun h => if_ctx_congr Iff.rfl (fun hh => ?_) fun _ => rfl
    rw [hh, hchain]
  rw [addAliasCall, addAlias]
  refine if_congr Iff.rfl rfl ?_
  dsimp only
  generalize hchain : t (getAliasHashValue a.fakename) = chain
  cases chain with
  | nil => exact congrArg some (happend [] hchain)
  | cons old rest =>
      dsimp only
      rw [addAliasLoop_eq, happend _ hchain]
      exact (apply_ite some _ _ _).symm

/-- Two entries with the same name are at the same place of the table. -/
def UniqueAliases (t : AliasTable) : Prop :=
  ∀ (h h' i j : ℕ) (a b : Alias), (t h)[i]? = some a → (t h')[j]? = some b →
    a.fakename = b.fakename → h = h' ∧ i = j

/-- If the name is in its bucket, the call changes nothing. -/
def LeavesKnown (t : AliasTable) (a : Alias) : Prop :=
  (∃ old ∈ t (getAliasHashValue a.fakename), old.fakename = a.fakename) → addAlias t a = t

/-- The last entry of the bucket has another name. -/
def LastDiffers (t : AliasTable) (a : Alias) : Prop :=
  (t (getAliasHashValue a.fakename)).getLast?.map Alias.fakename ≠ some a.fakename

/-- The entries of the table are in the buckets of their names. -/
def InBuckets (t : AliasTable) : Prop := ∀ h, ∀ a ∈ t h, getAliasHashValue a.fakename = h

lemma addAlias_inBuckets {t : AliasTable} (ht : InBuckets t) (a : Alias) :
    InBuckets (addAlias t a) := Buckets.bucket_insert ht a

lemma aliases_distinct_iff {t : AliasTable} (hbucket : InBuckets t) :
    UniqueAliases t ↔ Buckets.Distinct Alias.fakename getAliasHashValue t := by
  refine ⟨fun hunique => ⟨hbucket, fun h => ?_⟩,
    fun ht h h' i j a b ha hb hname => ht.place ha hb hname⟩
  rw [List.nodup_iff_getElem?_ne_getElem?]
  intro i j hij hj heq
  rw [List.length_map] at hj
  obtain ⟨a, ha⟩ : ∃ a, (t h)[i]? = some a := ⟨_, List.getElem?_eq_getElem (hij.trans hj)⟩
  obtain ⟨b, hb⟩ : ∃ b, (t h)[j]? = some b := ⟨_, List.getElem?_eq_getElem hj⟩
  rw [List.getElem?_map, List.getElem?_map, ha, hb, Option.map_some, Option.map_some,
    Option.some.injEq] at heq
  exact hij.ne (hunique h h i j a b ha hb heq).2

/-- The table has no name twice exactly if no call was for the name of the last entry of its
bucket. -/
lemma aliasTable_unique_iff (as : List Alias) :
    UniqueAliases (aliasTable as) ↔ Run.Allowed addAlias LastDiffers (fun _ => []) as := by
  have hstep (t : AliasTable) (a : Alias) (ht : InBuckets t) (_ : True) :
      InBuckets (addAlias t a) := addAlias_inBuckets ht a
  have hiff (t : AliasTable) (a : Alias) (ht : InBuckets t) (_ : True) :
      Buckets.Distinct Alias.fakename getAliasHashValue (addAlias t a) ↔
        Buckets.Distinct Alias.fakename getAliasHashValue t ∧ LastDiffers t a :=
    Buckets.distinct_insert_iff ht a
  have hempty : InBuckets fun _ => [] := fun _ _ ha => absurd ha List.not_mem_nil
  have hall := Run.allowed_true addAlias (fun _ => []) as
  have hbuckets : InBuckets (aliasTable as) := Run.runs_invariant hstep as _ hempty hall
  rw [aliases_distinct_iff hbuckets]
  exact (Run.runs_iff_allowed hstep hiff as _ hempty hall).trans
    (and_iff_right (Buckets.distinct_empty _ _))

/-- **Aliases are unique**, in every table that calls of `add_alias` lead to, and a call for a name
that is in its bucket changes nothing, exactly if no call is for the name of the last entry of its
bucket. -/
theorem aliases_unique_iff (as : List Alias) :
    ((∀ done, done <+: as → UniqueAliases (aliasTable done)) ∧
        Run.Allowed addAlias LeavesKnown (fun _ => []) as) ↔
      Run.Allowed addAlias LastDiffers (fun _ => []) as := by
  constructor
  · rintro ⟨hunique, -⟩
    exact (aliasTable_unique_iff as).mp (hunique as List.prefix_rfl)
  · intro hlast
    refine ⟨?_, hlast.mono fun t a hdiffers hknown => Buckets.insert_known hknown hdiffers⟩
    rintro done ⟨rest, rfl⟩
    exact (aliasTable_unique_iff done).mpr (Run.allowed_append.mp hlast).1

/-- The only entry of a bucket is added again. -/
theorem aliases_not_unique :
    ¬UniqueAliases (aliasTable
      [⟨str "/a", str "/srv/a", .alias⟩, ⟨str "/a", str "/srv/b", .alias⟩]) := by
  intro hunique
  have hplace := hunique (getAliasHashValue (str "/a")) (getAliasHashValue (str "/a")) 0 1
    ⟨str "/a", str "/srv/a", .alias⟩ ⟨str "/a", str "/srv/b", .alias⟩ (by decide)
    (by decide) rfl
  exact absurd hplace.2 (by decide)

/-- A name of more than a slash is in the bucket of every URI that it matches. -/
lemma getAliasHashValue_of_matchesUri {a : Alias} {uri : Bytes} (hne : a.fakename ≠ [])
    (huri : uri.head? = some 47) (hroot : a.fakename ≠ str "/") (h : a.matchesUri uri = true) :
    getAliasHashValue a.fakename = getAliasHashValue uri := by
  rw [Alias.matchesUri, Bool.and_eq_true, List.isPrefixOf_iff_prefix] at h
  obtain ⟨⟨t, rfl⟩, hbound⟩ := h
  obtain ⟨b, f, hname⟩ := List.exists_cons_of_ne_nil hne
  rw [hname, List.cons_append, List.head?_cons, Option.some.injEq] at huri
  subst huri
  have hf : f ≠ [] := by
    rintro rfl
    exact hroot hname
  have hhead : (f ++ t).takeWhile (· != 47) = f.takeWhile (· != 47) := by
    rw [List.takeWhile_append]
    split_ifs with hall
    · -- the name is a single component, which ends where the one of the URI does
      have hslash : ∀ c ∈ f, (c != 47) = true := by
        have hself : f.takeWhile (· != 47) = f :=
          (List.takeWhile_prefix _).eq_of_length hall
        exact List.takeWhile_eq_self_iff.mp hself
      have hlast : f.getLast? ≠ some 47 := fun hl =>
        absurd (hslash 47 (List.mem_of_getLast? hl)) (by decide)
      have ht : t.takeWhile (· != 47) = [] := by
        rw [List.drop_left, hname, List.getLast?_cons_of_ne_nil hf] at hbound
        simp only [Bool.or_eq_true, beq_iff_eq, hlast, false_or] at hbound
        cases t with
        | nil => rfl
        | cons c t =>
            have hc : c = 47 := by simpa using hbound
            rw [hc]
            rfl
      rw [ht, List.append_nil, List.takeWhile_eq_self_iff.mpr hslash]
    · rfl
  rw [hname, List.cons_append, getAliasHashValue, getAliasHashValue, hhead]

/-- **Hashed lookup**: `find_alias` finds what a search among all the aliases finds, unless the
earliest that matches is `/` and the first component of the URI leads to another bucket. -/
theorem findAlias_linear_iff (as : List Alias) (uri : Bytes) (hne : ∀ a ∈ as, a.fakename ≠ [])
    (huri : uri.head? = some 47) :
    findAlias (aliasTable as) uri = linearSearch as uri ↔
      ∀ a, linearSearch as uri = some a → a.fakename = str "/" →
        getAliasHashValue uri = getAliasHashValue (str "/") := by
  have hbucket : findAlias (aliasTable as) uri
      = (as.filter fun a => getAliasHashValue a.fakename = getAliasHashValue uri).find?
        fun a => a.matchesUri uri :=
    Buckets.find?_table as _ fun name => (Alias.mk name [] .alias).matchesUri uri
  rw [hbucket, linearSearch, Buckets.find?_filter_eq_iff]
  refine forall₂_congr fun a ha => ?_
  rw [decide_eq_true_eq]
  constructor
  · intro heq hroot
    rw [← heq, hroot]
  · intro hroot
    by_cases hslash : a.fakename = str "/"
    · rw [hslash, hroot hslash]
    · exact getAliasHashValue_of_matchesUri (hne a (List.mem_of_find?_eq_some ha)) huri hslash
        (List.find?_some (p := fun a : Alias => a.matchesUri uri) ha)

/-- The alias `/` is not found for `/a`. -/
theorem findAlias_not_linear :
    ¬findAlias (aliasTable [⟨str "/", str "/srv/", .alias⟩]) (str "/a")
      = linearSearch [⟨str "/", str "/srv/", .alias⟩] (str "/a") := by
  decide

/-- Two aliases that match, of which the second is the longer one. -/
theorem findAlias_linear_docs :
    findAlias (aliasTable [⟨str "/doc", str "/srv/doc", .alias⟩,
        ⟨str "/doc/a/", str "/srv/a/", .alias⟩]) (str "/doc/a/b")
      = linearSearch [⟨str "/doc", str "/srv/doc", .alias⟩,
        ⟨str "/doc/a/", str "/srv/a/", .alias⟩] (str "/doc/a/b") := by
  refine (findAlias_linear_iff _ _ (by decide) (by decide)).mpr fun a ha hroot => ?_
  have hdoc : linearSearch [⟨str "/doc", str "/srv/doc", .alias⟩,
      ⟨str "/doc/a/", str "/srv/a/", .alias⟩] (str "/doc/a/b")
      = some ⟨str "/doc", str "/srv/doc", .alias⟩ := by decide
  rw [hdoc, Option.some.injEq] at ha
  rw [← ha] at hroot
  exact absurd hroot (by decide)

/-! ### The path info -/

/-- The translation of a path info that no alias is for: the user's directory, or the document
root. -/
def rootTranslation (cfg : Config) (pathInfo : Bytes) : Page ⊕ Option Bytes :=
  match cfg.userDir with
  | some dir =>
      if (pathInfo.drop 1).head? = some 126 then
        match userPath cfg dir (pathInfo.drop 1) with
        | none => .inl .notFound
        | some p => .inr (some p)
      else .inr (cfg.documentRoot.map (· ++ pathInfo))
  | none => .inr (cfg.documentRoot.map (· ++ pathInfo))

/-- A name in which the name of an alias gives way to what it stands for. -/
def Alias.substitute (a : Alias) (name : Bytes) : Bytes :=
  a.realname ++ name.drop a.fakename.length

/-- The alias that `init_script_alias` takes for a path info: the first of the bucket whose name
the path info begins with. -/
def prefixAlias (cfg : Config) (pathInfo : Bytes) : Option Alias :=
  (cfg.aliases (getAliasHashValue pathInfo)).find? fun a => a.fakename.isPrefixOf pathInfo

/-- The translation of a path info by the alias that `find_alias` finds for it, and by nothing
else if there is one. -/
def uriTranslation (cfg : Config) (pathInfo : Bytes) : Page ⊕ Option Bytes :=
  match findAlias cfg.aliases pathInfo with
  | some a => .inr (some (a.substitute pathInfo))
  | none => rootTranslation cfg pathInfo

lemma pathTranslation_of_none {cfg : Config} {pathInfo : Bytes}
    (h : prefixAlias cfg pathInfo = none) :
    pathTranslation cfg pathInfo = rootTranslation cfg pathInfo := by
  rw [prefixAlias] at h
  rw [pathTranslation, h]
  rfl

lemma pathTranslation_of_some {cfg : Config} {pathInfo : Bytes} {a : Alias} {p : Option Bytes}
    (h : prefixAlias cfg pathInfo = some a) (hp : pathTranslation cfg pathInfo = .inr p) :
    p = some (a.substitute pathInfo) := by
  rw [prefixAlias] at h
  rw [pathTranslation, h] at hp
  dsimp only at hp
  split_ifs at hp
  exact (Sum.inr.inj hp).symm

/-- No alias is a prefix of the path info, so that none matches it. -/
lemma findAlias_of_none {cfg : Config} {pathInfo : Bytes}
    (h : prefixAlias cfg pathInfo = none) : findAlias cfg.aliases pathInfo = none := by
  refine List.find?_eq_none.mpr fun a ha hmatch => ?_
  rw [Alias.matchesUri, Bool.and_eq_true] at hmatch
  exact List.find?_eq_none.mp h a ha hmatch.1

/-- The alias that is a prefix is the one that matches, if it matches at all. -/
lemma findAlias_of_prefixAlias {cfg : Config} {pathInfo : Bytes} {a : Alias}
    (h : prefixAlias cfg pathInfo = some a) (hmatch : a.matchesUri pathInfo = true) :
    findAlias cfg.aliases pathInfo = some a := by
  obtain ⟨-, front, behind, hchain, hfront⟩ := List.find?_eq_some_iff_append.mp h
  refine List.find?_eq_some_iff_append.mpr ⟨hmatch, front, behind, hchain, fun b hb => ?_⟩
  have hmiss := hfront b hb
  rw [Bool.not_eq_true'] at hmiss ⊢
  rw [Alias.matchesUri, hmiss, Bool.false_and]

lemma scriptAtEnd_pathInfo (env : Env) (buf : Mem) (r : Request) (path : Bytes) :
    (scriptAtEnd env buf r path).req.pathInfo = r.pathInfo := by
  rw [scriptAtEnd]
  cases env.stat path with
  | none => rfl
  | some kind =>
      dsimp only
      split_ifs <;> rfl

lemma scriptAtSlash_pathTranslated {cfg : Config} {buf : Mem} {r : Request}
    {path pathInfo : Bytes} (htrans : r.pathTranslated = none)
    (hret : (scriptAtSlash cfg buf r path pathInfo).ret = true) :
    pathTranslation cfg pathInfo
      = .inr (scriptAtSlash cfg buf r path pathInfo).req.pathTranslated := by
  simp only [scriptAtSlash, htrans] at hret ⊢
  cases hp : pathTranslation cfg pathInfo with
  | inl page =>
      rw [hp] at hret
      cases hret
  | inr p => rfl

lemma scriptFinish_pathTranslated {cfg : Config} {env : Env} {r : Request} {pathInfo : Bytes}
    (hinfo : r.pathInfo = none) (htrans : r.pathTranslated = none) (res : Scan × Mem)
    (hret : (scriptFinish cfg env r res).ret = true)
    (h : (scriptFinish cfg env r res).req.pathInfo = some pathInfo) :
    pathTranslation cfg pathInfo = .inr (scriptFinish cfg env r res).req.pathTranslated := by
  obtain ⟨scan, m⟩ := res
  cases scan with
  | fail page => cases hret
  | atEnd =>
      rw [scriptFinish, scriptAtEnd_pathInfo, hinfo] at h
      cases h
  | atSlash i =>
      rw [scriptFinish] at hret h ⊢
      have hsplit := (scriptAtSlash_pathname hret).2
      rw [hsplit, Option.some.injEq] at h
      rw [← h]
      exact scriptAtSlash_pathTranslated htrans hret

/-- A script that is resolved is resolved by the end of the function. -/
lemma initScriptAlias_finish {cfg : Config} {env : Env} {buf : Mem} {r : Request} {a : Alias}
    (hret : (initScriptAlias cfg env buf r a).ret = true) :
    ∃ name res, initScriptAlias cfg env buf r a
      = scriptFinish cfg env (r.setScriptType name) res := by
  by_cases hfit : sizeofPathname
      < (scriptRoot cfg r a).length + (r.requestUri.drop a.fakename.length).length + 1
  · simp only [initScriptAlias, if_pos hfit] at hret
    cases hret
  · simp only [initScriptAlias, if_neg hfit]
    exact ⟨_, _, rfl⟩

/-- A server with a script directory, and an alias whose name is part of a component. -/
def partialAliasServer (info : Bytes) : Config where
  documentRoot := some (str "/www")
  aliases := aliasTable [⟨str "/cgi-bin/", str "/cgi/", .scriptAlias⟩, ⟨info, str "/srv", .alias⟩]

/-- One script. -/
def oneScript : Env where
  stat := fun path => if path = str "/cgi/s" then some .regular else none
  accessRx := fun path => path = str "/cgi/s"

/-- A request for the script with a path info. -/
def infoRequest (info : Bytes) : Request := { fd := 4, requestUri := str "/cgi-bin/s" ++ info }

end Yabwf
