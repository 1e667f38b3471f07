import Yabwf.Containment
import Yabwf.Output
import Yabwf.Request

/-!
What `process_header_end` can do.

* `handedOn`: the request that it hands to `translate_uri`.
* `processHeaderEnd_cases`, `translateRequest_cases`: it refuses the request with a page,
  accepts the body of a `POST`, starts a script, or goes on to `init_get`.
* `Translates`: what `translate_uri` may change.
-/

namespace Yabwf

open Memory

/-! ### `translate_uri` -/

/-- `translate_uri` sets the kind and the names of a script and the file name. -/
def Translates (r r' : Request) : Prop :=
  ∃ ct pn sn pi pt, r' = { r with
    cgiType := ct, pathname := pn, scriptName := sn, pathInfo := pi, pathTranslated := pt }

lemma Translates.trans {r r' r'' : Request} (h : Translates r r') (h' : Translates r' r'') :
    Translates r r'' := by
  obtain ⟨_, _, _, _, _, rfl⟩ := h
  obtain ⟨_, _, _, _, _, rfl⟩ := h'
  exact ⟨_, _, _, _, _, rfl⟩

lemma setScriptType_translates (r : Request) (name : Bytes) :
    Translates r (r.setScriptType name) :=
  ⟨_, _, _, _, _, rfl⟩

lemma scriptAtEnd_translates (env : Env) (buf : Mem) (r : Request) (path : Bytes) :
    Translates r (scriptAtEnd env buf r path).req := by
  rw [scriptAtEnd]
  cases env.stat path with
  | none => exact ⟨_, _, _, _, _, rfl⟩
  | some kind =>
      simp only
      split_ifs
      · exact ⟨_, _, _, _, _, rfl⟩
      · exact ⟨_, _, _, _, _, rfl⟩

lemma scriptAtSlash_translates (cfg : Config) (buf : Mem) (r : Request) (path info : Bytes) :
    Translates r (scriptAtSlash cfg buf r path info).req := by
  unfold scriptAtSlash
  extract_lets cut r' translated
  rcases translated with page | p
  · exact ⟨_, _, _, _, _, rfl⟩
  · exact ⟨_, _, _, _, _, rfl⟩

lemma scriptFinish_translates (cfg : Config) (env : Env) (r : Request) (res : Scan × Mem) :
    Translates r (scriptFinish cfg env r res).req := by
  obtain ⟨scan, m⟩ := res
  cases scan with
  | fail page => exact ⟨_, _, _, _, _, rfl⟩
  | atEnd => exact scriptAtEnd_translates env m r _
  | atSlash i => exact scriptAtSlash_translates cfg _ r _ _

lemma initScriptAlias_translates (cfg : Config) (env : Env) (buf : Mem) (r : Request)
    (a : Alias) : Translates r (initScriptAlias cfg env buf r a).req := by
  unfold initScriptAlias
  extract_lets root rest m r'
  split_ifs
  · exact ⟨_, _, _, _, _, rfl⟩
  · exact (setScriptType_translates r _).trans (scriptFinish_translates cfg env r' _)

lemma translateTail_translates (cfg : Config) (buf : Mem) (r : Request) (path : Bytes) :
    Translates r (translateTail cfg buf r path).req := by
  unfold translateTail
  extract_lets r'
  split_ifs <;> exact ⟨_, _, _, _, _, rfl⟩

lemma translateUri_translates (cfg : Config) (env : Env) (buf : Mem) (r : Request) :
    Translates r (translateUri cfg env buf r).req := by
  rcases translateUri_cases cfg env buf r with ⟨a, -, -, h⟩ | ⟨a, -, -, -, h⟩
    | ⟨root, rest, -, -, -, h⟩ | ⟨page, h⟩
  · rw [h]
    exact initScriptAlias_translates cfg env buf r a
  · rw [h]
    exact ⟨_, _, _, _, _, rfl⟩
  · rw [h]
    exact translateTail_translates cfg buf r _
  · rw [h]
    exact ⟨_, _, _, _, _, rfl⟩

/-! ### From the translation on -/

/-- A translation that succeeds chooses a file name, and no page. -/
def Translation.NamesFile (t : Translation) : Prop :=
  t.ret = true → t.page = none ∧ ∃ path, t.req.pathname = some path

lemma scriptFinish_namesFile (cfg : Config) (env : Env) (r : Request) (res : Scan × Mem) :
    (scriptFinish cfg env r res).NamesFile := by
  obtain ⟨scan, m⟩ := res
  cases scan with
  | fail page =>
      intro h
      cases h
  | atEnd =>
      rw [scriptFinish, scriptAtEnd]
      cases env.stat (pathString m) with
      | none =>
          intro h
          cases h
      | some kind =>
          simp only
          split_ifs
          · exact fun _ => ⟨rfl, _, rfl⟩
          · intro h
            cases h
  | atSlash i =>
      rw [scriptFinish]
      unfold scriptAtSlash
      extract_lets cut r' translated
      rcases translated with page | p
      · intro h
        cases h
      · exact fun _ => ⟨rfl, _, rfl⟩

lemma translateUri_namesFile (cfg : Config) (env : Env) (buf : Mem) (r : Request) :
    (translateUri cfg env buf r).NamesFile := by
  rcases translateUri_cases cfg env buf r with ⟨a, -, -, h⟩ | ⟨a, -, -, -, h⟩
    | ⟨root, rest, -, -, -, h⟩ | ⟨page, h⟩
  · rw [h]
    unfold initScriptAlias
    extract_lets root rest m r'
    split_ifs
    · intro h
      cases h
    · exact scriptFinish_namesFile cfg env r' _
  · rw [h]
    exact fun _ => ⟨rfl, _, rfl⟩
  · rw [h]
    unfold translateTail
    extract_lets r'
    by_cases hmime : cgiMimeType = getMimeType cfg (root ++ rest)
    · rw [if_pos hmime]
      exact fun _ => ⟨rfl, _, rfl⟩
    · rw [if_neg hmime]
      split_ifs
      · intro h
        cases h
      · exact fun _ => ⟨rfl, _, rfl⟩
  · rw [h]
    intro h
    cases h

/-- The connection with the request as `translate_uri` leaves it. -/
def translated (cfg : Config) (env : Env) (c : Conn) : Conn :=
  { c with req := (translateUri cfg env env.scriptBuf c.req).req }

/-- Sending a page if there is one. -/
def sendPages (cfg : Config) (env : Env) (page : Option Page) (c : Conn) : Conn :=
  page.elim c fun page => sendPage cfg env page c

lemma translateRequest_of_fail {cfg : Config} {env : Env} {c : Conn}
    (hret : (translateUri cfg env env.scriptBuf c.req).ret = false) :
    translateRequest cfg env c = (0, (sendPages cfg env
      (translateUri cfg env env.scriptBuf c.req).page (translated cfg env c)).squashKa) := by
  rw [translateRequest, hret]
  cases (translateUri cfg env env.scriptBuf c.req).page with
  | none => rfl
  | some page => rfl

lemma translateRequest_of_ret {cfg : Config} {env : Env} {c : Conn}
    (hret : (translateUri cfg env env.scriptBuf c.req).ret = true) :
    translateRequest cfg env c =
      if accessDenied cfg (translated cfg env c).req then
        (0, sendRForbidden cfg env (translated cfg env c))
      else if (translated cfg env c).req.method = .post then
        acceptPost cfg env (translated cfg env c)
      else if (translated cfg env c).req.cgiType ≠ .none then
        initCgi cfg env (translated cfg env c)
      else initGet cfg env ((translated cfg env c).setStatus .write) := by
  rw [translateRequest, hret, (translateUri_namesFile cfg env env.scriptBuf c.req hret).1]
  rfl

/-- `process_header_end` from the translation on: the request is refused with the page that
`translate_uri` has chosen or by the access rules, or it goes on by its method and kind. -/
lemma translateRequest_cases (cfg : Config) (env : Env) (c : Conn) :
    ((translateUri cfg env env.scriptBuf c.req).ret = false ∧
      translateRequest cfg env c = (0, (sendPages cfg env
        (translateUri cfg env env.scriptBuf c.req).page (translated cfg env c)).squashKa)) ∨
    ((translateUri cfg env env.scriptBuf c.req).ret = true ∧
      translateRequest cfg env c = (0, sendRForbidden cfg env (translated cfg env c))) ∨
    ((translateUri cfg env env.scriptBuf c.req).ret = true ∧
      accessDenied cfg (translated cfg env c).req = false ∧
      ((c.req.method = .post ∧
          translateRequest cfg env c = acceptPost cfg env (translated cfg env c)) ∨
        (c.req.method ≠ .post ∧ (translated cfg env c).req.cgiType ≠ .none ∧
          translateRequest cfg env c = initCgi cfg env (translated cfg env c)) ∨
        (c.req.method ≠ .post ∧ (translated cfg env c).req.cgiType = .none ∧
          translateRequest cfg env c
            = initGet cfg env ((translated cfg env c).setStatus .write)))) := by
  have hmethod : (translated cfg env c).req.method = c.req.method := by
    obtain ⟨_, _, _, _, _, h⟩ := translateUri_translates cfg env env.scriptBuf c.req
    rw [translated, h]
  cases hret : (translateUri cfg env env.scriptBuf c.req).ret with
  | false => exact Or.inl ⟨rfl, translateRequest_of_fail hret⟩
  | true =>
      rw [translateRequest_of_ret hret, hmethod]
      by_cases hdenied : accessDenied cfg (translated cfg env c).req = true
      · rw [if_pos hdenied]
        exact Or.inr (Or.inl ⟨rfl, rfl⟩)
      · rw [if_neg hdenied]
        refine Or.inr (Or.inr ⟨rfl, by simpa using hdenied, ?_⟩)
        by_cases hpost : c.req.method = .post
        · exact Or.inl ⟨hpost, if_pos hpost⟩
        · rw [if_neg hpost]
          by_cases hcgi : (translated cfg env c).req.cgiType = .none
          · exact Or.inr (Or.inr ⟨hpost, hcgi, if_neg (not_not.mpr hcgi)⟩)
          · exact Or.inr (Or.inl ⟨hpost, hcgi, if_pos hcgi⟩)

/-! ### `process_header_end` -/

/-- The request that `process_header_end` hands to `translate_uri`: its URI is decoded
and cleaned, and it has a virtual host if there are any. -/
def handedOn (cfg : Config) (r : Request) : Option Request :=
  if !r.logline then none
  else
    match unescapeUri r.requestUri true with
    | (false, _) => none
    | (true, uri, query) =>
        let r := r.decoded uri query
        if r.requestUri.head? ≠ some 47 then none
        else if cfg.vhostRoot = none then some r
        else if checkHost ((r.hosted cfg).host.getD []) < 1 then none
        else some (r.hosted cfg)

/-- What `process_header_end` changes before it hands the request on or refuses it: the
URI, the query and the host. -/
def Decodes (r r' : Request) : Prop :=
  ∃ uri query host, r' = { r with requestUri := uri, queryString := query, host := host }

/-- `process_header_end` refuses a request with one of two pages, or translates it. -/
lemma processHeaderEnd_cases (cfg : Config) (env : Env) (c : Conn) :
    (handedOn cfg c.req = none ∧ ∃ r, Decodes c.req r ∧
      (processHeaderEnd cfg env c
          = (0, sendRError cfg env { c.emit .headerEnd with req := r }) ∨
        processHeaderEnd cfg env c
          = (0, sendRBadRequest cfg env { c.emit .headerEnd with req := r }))) ∨
    ∃ r, handedOn cfg c.req = some r ∧ Decodes c.req r ∧
      processHeaderEnd cfg env c
        = translateRequest cfg env { c.emit .headerEnd with req := r } := by
  have hrefl : Decodes c.req c.req := ⟨_, _, _, rfl⟩
  rw [processHeaderEnd, handedOn, Conn.emit_req]
  by_cases hline : (!c.req.logline) = true
  · rw [if_pos hline, if_pos hline]
    exact Or.inl ⟨rfl, c.req, hrefl, Or.inl rfl⟩
  rw [if_neg hline, if_neg hline]
  generalize unescapeUri c.req.requestUri true = res
  obtain ⟨ok, uri, query⟩ := res
  cases ok with
  | false => exact Or.inl ⟨rfl, c.req, hrefl, Or.inr rfl⟩
  | true =>
      have hdecoded : Decodes c.req (c.req.decoded uri query) := ⟨_, _, _, rfl⟩
      have hhosted : Decodes c.req ((c.req.decoded uri query).hosted cfg) := ⟨_, _, _, rfl⟩
      dsimp only
      by_cases hhead : (c.req.decoded uri query).requestUri.head? ≠ some 47
      · rw [if_pos hhead, if_pos (show ((c.emit .headerEnd).upd fun r =>
          r.decoded uri query).req.requestUri.head? ≠ some 47 from hhead)]
        exact Or.inl ⟨rfl, _, hdecoded, Or.inr rfl⟩
      rw [if_neg hhead, if_neg (show ¬((c.emit .headerEnd).upd fun r =>
        r.decoded uri query).req.requestUri.head? ≠ some 47 from hhead)]
      by_cases hvhost : cfg.vhostRoot = none
      · rw [if_pos hvhost, if_pos hvhost]
        exact Or.inr ⟨_, rfl, hdecoded, rfl⟩
      rw [if_neg hvhost, if_neg hvhost]
      by_cases hhost : checkHost (((c.req.decoded uri query).hosted cfg).host.getD []) < 1
      · rw [if_pos hhost, if_pos (show checkHost ((((c.emit .headerEnd).upd fun r =>
          r.decoded uri query).upd (Request.hosted cfg)).req.host.getD []) < 1 from hhost)]
        exact Or.inl ⟨rfl, _, hhosted, Or.inr rfl⟩
      · rw [if_neg hhost, if_neg (show ¬checkHost ((((c.emit .headerEnd).upd fun r =>
          r.decoded uri query).upd (Request.hosted cfg)).req.host.getD []) < 1 from hhost)]
        exact Or.inr ⟨_, rfl, hhosted, rfl⟩

end Yabwf
