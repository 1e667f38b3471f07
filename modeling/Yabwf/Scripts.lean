import Yabwf.HeaderEnd

/-!
Which requests are for scripts.

* `aliasPath`: the file name of a request that an `Alias` answers.
* `KnowsScripts`: `translate_uri` marks the requests that match a `ScriptAlias` or whose
  file has the type of a script, and no others.
* `PostsToScripts`: `process_header_end` accepts the body of a `POST` for scripts only.
* `scripts_only_iff`: both hold exactly where no `Alias` gets in the way.
-/

namespace Yabwf

open Memory

/-! ### The exits of `translate_uri` -/

/-- The file name of a request that an `Alias` answers. -/
def aliasPath (cfg : Config) (r : Request) : Option Bytes :=
  if r.requestUri.head? ≠ some 47 then none
  else
    (findAlias cfg.aliases r.requestUri).bind fun a =>
      if a.type = .alias ∧
          a.realname.length + r.requestUri.length - a.fakename.length + 1 ≤ sizeofPathname then
        some (a.realname ++ r.requestUri.drop a.fakename.length)
      else none

/-- A `ScriptAlias` is the entry for the URI. -/
def MatchesScriptAlias (cfg : Config) (r : Request) : Prop :=
  ∃ a, findAlias cfg.aliases r.requestUri = some a ∧ a.type = .scriptAlias

lemma translateUri_of_aliasPath {cfg : Config} {r : Request} {path : Bytes} (env : Env)
    (buf : Mem) (h : aliasPath cfg r = some path) :
    translateUri cfg env buf r =
      { ret := true, req := { r with pathname := some path }, scriptBuf := buf } ∧
    ¬MatchesScriptAlias cfg r := by
  rw [aliasPath] at h
  by_cases hhead : r.requestUri.head? ≠ some 47
  · rw [if_pos hhead] at h
    cases h
  rw [if_neg hhead, Option.bind_eq_some_iff] at h
  obtain ⟨a, hfind, ha⟩ := h
  split_ifs at ha with hfits
  cases ha
  obtain ⟨htype, hfits⟩ := hfits
  have hscript : a.type ≠ .scriptAlias := by
    rw [htype]
    decide
  have hredirect : a.type ≠ .redirect := by
    rw [htype]
    decide
  constructor
  · simp only [translateUri]
    rw [if_neg hhead, hfind]
    dsimp only
    rw [if_neg hscript, if_neg (not_lt.mpr hfits), if_neg hredirect]
  · rintro ⟨b, hb, hbtype⟩
    rw [hfind, Option.some.injEq] at hb
    rw [← hb] at hbtype
    exact hscript hbtype

/-- Without an `Alias` that answers, `translate_uri` resolves a script, goes through its
tail, or fails. -/
lemma translateUri_of_aliasPath_none {cfg : Config} {r : Request} (env : Env) (buf : Mem)
    (h : aliasPath cfg r = none) :
    (∃ a, findAlias cfg.aliases r.requestUri = some a ∧ a.type = .scriptAlias ∧
        translateUri cfg env buf r = initScriptAlias cfg env buf r a) ∨
    (∃ path, ¬MatchesScriptAlias cfg r ∧
        translateUri cfg env buf r = translateTail cfg buf r path) ∨
    (translateUri cfg env buf r).ret = false := by
  rcases translateUri_cases cfg env buf r with hs | ⟨a, hfind, htype, hfits, heq⟩
    | ⟨root, rest, hfind, -, -, heq⟩ | ⟨page, heq⟩
  · exact Or.inl hs
  · refine Or.inr (Or.inr ?_)
    by_cases hhead : r.requestUri.head? ≠ some 47
    · simp only [translateUri]
      rw [if_pos hhead]
    · simp only [aliasPath, hfind, Option.bind_some, htype, hfits, and_self, if_true] at h
      rw [if_neg hhead] at h
      cases h
  · refine Or.inr (Or.inl ⟨_, ?_, heq⟩)
    rintro ⟨a, ha, -⟩
    rw [hfind] at ha
    cases ha
  · exact Or.inr (Or.inr (by rw [heq]))

/-- A request that a `ScriptAlias` resolves is marked as one for a script. -/
lemma initScriptAlias_cgiType {cfg : Config} {env : Env} {buf : Mem} {r : Request} {a : Alias}
    (h : (initScriptAlias cfg env buf r a).ret = true) :
    (initScriptAlias cfg env buf r a).req.cgiType ≠ .none := by
  have hset : ∀ name, (r.setScriptType name).cgiType ≠ .none := by
    intro name
    rw [Request.setScriptType]
    dsimp only
    split_ifs <;> decide
  unfold initScriptAlias at h ⊢
  extract_lets root rest m r' at h ⊢
  split_ifs at h ⊢ with hfit
  generalize scriptScan env (sizeofPathname + 1) m a.realname.length = res at h ⊢
  obtain ⟨scan, m'⟩ := res
  have hr' : r'.cgiType ≠ .none := hset _
  clear_value r'
  cases scan with
  | fail page => cases h
  | atEnd =>
      rw [scriptFinish, scriptAtEnd] at h ⊢
      cases hstat : env.stat (pathString m') with
      | none =>
          rw [hstat] at h
          cases h
      | some kind =>
          rw [hstat] at h
          dsimp only at h ⊢
          split_ifs at h ⊢
          exact hr'
  | atSlash i =>
      rw [scriptFinish] at h ⊢
      unfold scriptAtSlash at h ⊢
      extract_lets cut r'' translated at h ⊢
      clear_value translated
      rcases translated with page | p
      · cases h
      · exact hr'

/-- A request that has gone through the tail of `translate_uri`: a `POST` is for a script,
and any other request is marked if its file has the type of a script. -/
lemma translateTail_cgiType {cfg : Config} {buf : Mem} {r : Request} {path : Bytes}
    (hfresh : r.method = .post ∨ r.cgiType = .none)
    (h : (translateTail cfg buf r path).ret = true) :
    (translateTail cfg buf r path).req.pathname = some path ∧
      ((translateTail cfg buf r path).req.cgiType ≠ .none ↔
        getMimeType cfg path = cgiMimeType) ∧
      (r.method = .post → getMimeType cfg path = cgiMimeType) := by
  unfold translateTail at h ⊢
  by_cases hmime : cgiMimeType = getMimeType cfg path
  · rw [if_pos hmime]
    refine ⟨rfl, ⟨fun _ => hmime.symm, fun _ => ?_⟩, fun _ => hmime.symm⟩
    dsimp only
    split_ifs <;> decide
  · rw [if_neg hmime] at h ⊢
    by_cases hpost : r.method = .post
    · rw [if_pos hpost] at h
      cases h
    · rw [if_neg hpost]
      have hnone : r.cgiType = .none := hfresh.resolve_left hpost
      exact ⟨rfl, ⟨fun hne => absurd hnone hne, fun heq => absurd heq.symm hmime⟩,
        fun h' => absurd h' hpost⟩

/-! ### Marking the requests for scripts -/

/-- `translate_uri` marks the requests that match a `ScriptAlias` or whose file has the type
of a script, and no others. -/
def KnowsScripts (cfg : Config) (env : Env) (r : Request) : Prop :=
  (translateUri cfg env env.scriptBuf r).ret = true →
    ((translateUri cfg env env.scriptBuf r).req.cgiType ≠ .none ↔
      MatchesScriptAlias cfg r ∨
        (translateUri cfg env env.scriptBuf r).req.pathname.map (getMimeType cfg)
          = some cgiMimeType)

/-- An `Alias` that answers the request finds it marked as its file name demands. -/
def AliasKnowsScripts (cfg : Config) (r : Request) : Prop :=
  ∀ path, aliasPath cfg r = some path →
    (r.cgiType ≠ .none ↔ getMimeType cfg path = cgiMimeType)

lemma knowsScripts_iff {cfg : Config} {env : Env} {r : Request}
    (hfresh : r.method = .post ∨ r.cgiType = .none) :
    KnowsScripts cfg env r ↔ AliasKnowsScripts cfg r := by
  rw [KnowsScripts, AliasKnowsScripts]
  cases hpath : aliasPath cfg r with
  | some path =>
      obtain ⟨heq, hscript⟩ := translateUri_of_aliasPath env env.scriptBuf hpath
      rw [heq]
      simp only [Option.map_some, Option.some.injEq, hscript, false_or, forall_const,
        forall_eq']
  | none =>
      refine ⟨fun _ path h => absurd h (by simp), fun _ hret => ?_⟩
      rcases translateUri_of_aliasPath_none env env.scriptBuf hpath with
        ⟨a, hfind, htype, heq⟩ | ⟨path, hscript, heq⟩ | hfail
      · rw [heq] at hret ⊢
        have hcgi := initScriptAlias_cgiType hret
        exact ⟨fun _ => Or.inl ⟨a, hfind, htype⟩, fun _ => hcgi⟩
      · rw [heq] at hret ⊢
        obtain ⟨hname, hcgi, -⟩ := translateTail_cgiType hfresh hret
        rw [hname, hcgi, Option.map_some, Option.some.injEq]
        exact ⟨Or.inr, fun h => h.resolve_left hscript⟩
      · rw [hfail] at hret
        cases hret

/-! ### Accepting the body of a `POST` -/

/-- The file for the body can be made. -/
def TempFile (env : Env) : Prop :=
  (∃ fd, fd ≠ 0 ∧ env.mkstemp = some fd) ∧ env.unlinkOk = true ∧ env.fcntlOk = true

/-- `process_header_end` accepts the body exactly when the file for it can be made. -/
lemma acceptPost_ret (cfg : Config) (env : Env) (c : Conn) :
    ((acceptPost cfg env c).1 ≠ 0 ↔ TempFile env) ∧
      ((acceptPost cfg env c).1 ≠ 0 → (acceptPost cfg env c).2.req.cgiType = c.req.cgiType) := by
  unfold acceptPost TempFile createTemporaryFile
  cases hfd : env.mkstemp with
  | none => simp
  | some fd =>
      cases hunlink : env.unlinkOk with
      | false => simp
      | true =>
          by_cases hzero : fd = 0
          · simp [hzero]
          · cases hfcntl : env.fcntlOk with
            | false => simp [hzero]
            | true => simp [hzero]

/-- `process_header_end` goes on to the body of a `POST` for scripts only. -/
def PostsToScripts (cfg : Config) (env : Env) (c : Conn) : Prop :=
  c.req.method = .post → (processHeaderEnd cfg env c).1 ≠ 0 →
    (processHeaderEnd cfg env c).2.req.cgiType ≠ .none

/-- An `Alias` that answers a `POST` finds it marked, or the file name is refused, or the
file for the body cannot be made. -/
def AliasRefusesPost (cfg : Config) (env : Env) (c : Conn) : Prop :=
  ∀ r, handedOn cfg c.req = some r → ∀ path, aliasPath cfg r = some path →
    c.req.method = .post → c.req.cgiType = .none →
      (cfg.accessControl = true ∧ accessAllow cfg path = .deny) ∨ ¬TempFile env

lemma accessDenied_iff {cfg : Config} {r : Request} {path : Bytes} (h : r.pathname = some path) :
    accessDenied cfg r = true ↔ cfg.accessControl = true ∧ accessAllow cfg path = .deny := by
  rw [accessDenied, h]
  simp

lemma postsToScripts_iff {cfg : Config} {env : Env} {c : Conn} :
    PostsToScripts cfg env c ↔ AliasRefusesPost cfg env c := by
  rw [PostsToScripts, AliasRefusesPost]
  rcases processHeaderEnd_cases cfg env c with ⟨hnone, r, -, heq⟩ | ⟨r, hsome, hdec, heq⟩
  · rcases heq with heq | heq <;>
    · rw [heq, hnone]
      simp
  obtain ⟨uri, query, host, hr⟩ := hdec
  have hmethod : r.method = c.req.method := by rw [hr]
  have hcgi : r.cgiType = c.req.cgiType := by rw [hr]
  simp only [hsome, Option.some.injEq, forall_eq']
  rw [heq]
  by_cases hpost : c.req.method = .post
  swap
  · simp [hpost]
  simp only [hpost, forall_const]
  set d : Conn := { c.emit .headerEnd with req := r } with hd
  cases hpath : aliasPath cfg r with
  | none =>
      -- every other way to a `POST` that is accepted is one to a script
      refine ⟨fun _ path h => absurd h (by simp), fun _ hret => ?_⟩
      rcases translateRequest_cases cfg env d with ⟨-, he⟩ | ⟨-, he⟩ | ⟨htret, -, hgo⟩
      · rw [he] at hret
        exact absurd rfl hret
      · rw [he] at hret
        exact absurd rfl hret
      have hne : (translated cfg env d).req.cgiType ≠ .none := by
        have hfresh : r.method = .post ∨ r.cgiType = .none := Or.inl (hmethod.trans hpost)
        rcases translateUri_of_aliasPath_none env env.scriptBuf hpath with
          ⟨a, -, -, hexit⟩ | ⟨path, -, hexit⟩ | hfail
        · have hcgi := initScriptAlias_cgiType (hexit ▸ htret)
          rw [← hexit] at hcgi
          exact hcgi
        · obtain ⟨-, hcgi, hmime⟩ := translateTail_cgiType hfresh (hexit ▸ htret)
          rw [← hexit] at hcgi
          exact hcgi.mpr (hmime (hmethod.trans hpost))
        · exact absurd htret (by rw [hfail]; decide)
      rcases hgo with ⟨-, he⟩ | ⟨hnot, -⟩ | ⟨hnot, -⟩
      · rw [he] at hret ⊢
        rw [(acceptPost_ret cfg env _).2 hret]
        exact hne
      · exact absurd (hmethod.trans hpost) hnot
      · exact absurd (hmethod.trans hpost) hnot
  | some path =>
      obtain ⟨hexit, -⟩ := translateUri_of_aliasPath env env.scriptBuf hpath
      have htr : (translated cfg env d).req = { r with pathname := some path } := by
        rw [translated, hd]
        dsimp only
        rw [hexit]
      have hret : (translateUri cfg env env.scriptBuf d.req).ret = true := by
        rw [hd]
        dsimp only
        rw [hexit]
      simp only [Option.some.injEq, forall_eq']
      rw [translateRequest_of_ret hret]
      have hmethod' : (translated cfg env d).req.method = .post := by
        rw [htr]
        exact hmethod.trans hpost
      have hcgi' : (translated cfg env d).req.cgiType = c.req.cgiType := by
        rw [htr]
        exact hcgi
      have hname : (translated cfg env d).req.pathname = some path := by rw [htr]
      by_cases hdenied : accessDenied cfg (translated cfg env d).req = true
      · rw [if_pos hdenied]
        have hrule := (accessDenied_iff hname).mp hdenied
        exact ⟨fun _ _ => Or.inl hrule, fun _ h => absurd rfl h⟩
      · rw [if_neg hdenied, if_pos hmethod']
        have hrule := mt (accessDenied_iff hname).mpr hdenied
        obtain ⟨hok, hkeep⟩ := acceptPost_ret cfg env (translated cfg env d)
        constructor
        · intro h hfresh
          refine Or.inr fun htemp => ?_
          have hret := hok.mpr htemp
          rw [hkeep hret, hcgi'] at h
          exact h hret hfresh
        · intro h hret
          rw [hkeep hret, hcgi']
          intro hfresh
          exact (h hfresh).elim hrule fun htemp => htemp (hok.mp hret)

/-- **Scripts and `POST`**: `translate_uri` marks the requests for scripts exactly where an
`Alias` that answers finds the mark that its file name demands, and `process_header_end`
accepts the body of a `POST` for scripts only exactly where an `Alias` refuses it. -/
theorem scripts_only_iff (cfg : Config) (env : Env) (r : Request) (c : Conn)
    (hfresh : r.method = .post ∨ r.cgiType = .none) :
    (KnowsScripts cfg env r ↔ AliasKnowsScripts cfg r) ∧
      (PostsToScripts cfg env c ↔ AliasRefusesPost cfg env c) :=
  ⟨knowsScripts_iff hfresh, postsToScripts_iff⟩

/-! ### An `Alias` for a directory of documents -/

/-- A server with an `Alias` and scripts by their extension. -/
def aliasServer : Config where
  aliases := addAlias (fun _ => []) ⟨str "/doc/", str "/usr/doc/", .alias⟩
  mimeTypes := [(str "cgi", cgiMimeType)]

/-- A request line that has been read. -/
def aliasRequest (method : HttpMethod) (uri : String) : Request where
  fd := 4
  logline := true
  httpVersion := .http10
  method := method
  requestUri := str uri

/-- A script below the `Alias` is no script, and the body of a `POST` for a text below it is
accepted. -/
theorem scripts_only_fails :
    ¬KnowsScripts aliasServer {} (aliasRequest .get "/doc/run.cgi") ∧
      ¬PostsToScripts aliasServer { mkstemp := some 5 }
        { req := aliasRequest .post "/doc/a.txt" } := by
  constructor
  · intro h
    exact absurd ((h (by decide)).mpr (Or.inr (by decide))) (by decide)
  · intro h
    exact absurd (h rfl (by decide)) (by decide)

/-- The conditions are met by a request for a text below the `Alias`, and by a `POST` for a
script elsewhere. -/
theorem scripts_only_of_text :
    KnowsScripts aliasServer { mkstemp := some 5 } (aliasRequest .get "/doc/a.txt") ∧
      PostsToScripts aliasServer { mkstemp := some 5 } { req := aliasRequest .post "/x.cgi" } := by
  have hiff := scripts_only_iff aliasServer { mkstemp := some 5 }
    (aliasRequest .get "/doc/a.txt") { req := aliasRequest .post "/x.cgi" } (Or.inr rfl)
  constructor
  · refine hiff.1.mpr fun path hpath => ?_
    have htext : aliasPath aliasServer (aliasRequest .get "/doc/a.txt")
        = some (str "/usr/doc/a.txt") := by decide
    rw [htext, Option.some.injEq] at hpath
    rw [← hpath]
    decide
  · refine hiff.2.mpr fun r hr path hpath => ?_
    have hno : (handedOn aliasServer (aliasRequest .post "/x.cgi")).bind (aliasPath aliasServer)
        = none := by decide
    rw [hr, Option.bind_some, hpath] at hno
    cases hno

end Yabwf
