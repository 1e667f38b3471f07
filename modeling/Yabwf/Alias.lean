import Yabwf.Util

/-!
`alias.c`: the alias table and the way from a request URI to a file name.

* `addAlias`, `findAlias`: the hash table of aliases.
* `initScriptAlias`: resolution below a `ScriptAlias`. Its `pathname` is a static
  array that keeps the bytes of earlier requests, so the array is an argument and a
  result; `scriptScan` is the loop that walks it.
* `translateUri`: the five ways in which a file name is built.

Both return a `Translation`: the return value, the error response that has been sent
along the way, the request, and the static array.
-/

namespace Yabwf

open Memory

/-- `ALIAS_HASHTABLE_SIZE`. -/
def aliasHashtableSize : ℕ := 17

/-- `sizeof` the static arrays of `translate_uri` and `init_script_alias`. -/
def sizeofPathname : ℕ := maxHeaderLength + 1

/-- A `char` converted to `unsigned int`. -/
def charToUnsigned (b : UInt8) : ℕ := (charVal b % 2 ^ 32).toNat

/-- `get_alias_hash_value`. -/
def getAliasHashValue : Bytes → ℕ
  | [] => 0
  | b :: file =>
      ((file.takeWhile (· != 47)).foldl (fun h c => (h + charToUnsigned c) % 2 ^ 32)
        (charToUnsigned b)) % aliasHashtableSize

/-- `add_alias`. The last entry of the chain is not compared with. -/
def addAlias (t : AliasTable) (a : Alias) : AliasTable :=
  let hash := getAliasHashValue a.fakename
  if (t hash).dropLast.any (fun old => old.fakename == a.fakename) then t
  else fun h => if h = hash then t h ++ [a] else t h

/-- The test of `find_alias`: the fakename is a prefix of the URI and ends in a slash,
or the URI ends or goes on with a slash behind it. -/
def Alias.matchesUri (a : Alias) (uri : Bytes) : Bool :=
  a.fakename.isPrefixOf uri &&
    (a.fakename.getLast? == some 47 ||
      (uri.drop a.fakename.length).head? == none ||
      (uri.drop a.fakename.length).head? == some 47)

/-- `find_alias`. -/
def findAlias (t : AliasTable) (uri : Bytes) : Option Alias :=
  (t (getAliasHashValue uri)).find? fun a => a.matchesUri uri

/-- The responses that `alias.c` sends. -/
inductive Page
  | badRequest | forbidden | notFound
  | movedTemp (url : Bytes)
  deriving DecidableEq, Repr

/-- What `translate_uri` and `init_script_alias` leave behind. -/
structure Translation where
  ret : Bool
  page : Option Page := none
  req : Request
  scriptBuf : Mem
  /-- The index at which `script_name` is cut, if it is. -/
  cut : Option ℤ := none

/-! ### `init_script_alias` -/

/-- How the loop of `init_script_alias` ends: with a response, or at the index it has
reached, in front of a script and its path info or at the end of the string. -/
inductive Scan
  | fail (page : Page)
  | atSlash (i : ℕ)
  | atEnd
  deriving DecidableEq, Repr

/-- The string in the static array. -/
def pathString (m : Mem) : Bytes := m.cstr 0 sizeofPathname

/-- Whether a path may be executed: a regular file that `access` grants. -/
def Env.isScript (env : Env) (path : Bytes) : Bool :=
  env.stat path == some .regular && env.accessRx path

/-- The `do`-loop of `init_script_alias` behind the index `i`: how it ends, and the
array. A directory's slash is put back, that of a failure is not. -/
def scriptScan (env : Env) : ℕ → Mem → ℕ → Scan × Mem
  | 0, m, _ => (.atEnd, m)
  | fuel + 1, m, i =>
      if m (i + 1) = 47 then
        let m' := m.store (i + 1) [0]
        match env.stat (pathString m') with
        | none => (.fail .notFound, m')
        | some .directory => scriptScan env fuel m (i + 1)
        | some _ =>
            if env.isScript (pathString m') then (.atSlash (i + 1), m)
            else (.fail .forbidden, m')
      else if m (i + 1) = 0 then (.atEnd, m)
      else scriptScan env fuel m (i + 1)

/-- What a `ScriptAlias` puts in front of the rest of the URI. -/
def scriptRoot (cfg : Config) (r : Request) (a : Alias) : Bytes :=
  match cfg.vhostRoot with
  | some v =>
      v ++ str "/" ++ r.localIpAddr ++ str "/" ++ r.host.getD [] ++ str "/" ++ a.realname
  | none => a.realname

/-- The translation of the path info by `~`user directory. -/
def userPath (cfg : Config) (userDir tilde : Bytes) : Option Bytes :=
  (cfg.getHomeDir ((tilde.drop 1).takeWhile (· != 47))).map fun home =>
    home ++ str "/" ++ userDir ++ (tilde.drop 1).dropWhile (· != 47)

/-- The part of `init_script_alias` that sets `path_translated`: the alias chain, the
user's directory, or the document root. `Sum.inl` is a failure. -/
def pathTranslation (cfg : Config) (pathInfo : Bytes) : Page ⊕ Option Bytes :=
  match (cfg.aliases (getAliasHashValue pathInfo)).find?
      fun a => a.fakename.isPrefixOf pathInfo with
  | some a =>
      if sizeofPathname < a.realname.length + pathInfo.length - a.fakename.length + 1 then
        .inl .badRequest
      else .inr (some (a.realname ++ pathInfo.drop a.fakename.length))
  | none =>
      match cfg.userDir with
      | some dir =>
          if (pathInfo.drop 1).head? = some 126 then
            match userPath cfg dir (pathInfo.drop 1) with
            | none => .inl .notFound
            | some p => .inr (some p)
          else .inr (cfg.documentRoot.map (· ++ pathInfo))
      | none => .inr (cfg.documentRoot.map (· ++ pathInfo))

/-- The kind of script that a name in the script directory stands for. -/
def Request.setScriptType (r : Request) (name : Bytes) : Request :=
  { r with
    cgiType := if (str "nph-").isPrefixOf name ∨ r.httpVersion = .http09 then .nph else .cgi }

@[simp] lemma Request.setScriptType_requestUri (r : Request) (name : Bytes) :
    (r.setScriptType name).requestUri = r.requestUri := rfl
@[simp] lemma Request.setScriptType_scriptName (r : Request) (name : Bytes) :
    (r.setScriptType name).scriptName = r.scriptName := rfl
@[simp] lemma Request.setScriptType_pathInfo (r : Request) (name : Bytes) :
    (r.setScriptType name).pathInfo = r.pathInfo := rfl

/-- The end of `init_script_alias` where the loop has seen the whole string: `path` must
be a script. -/
def scriptAtEnd (env : Env) (buf : Mem) (r : Request) (path : Bytes) : Translation :=
  let r := { r with scriptName := some r.requestUri }
  match env.stat path with
  | none => { ret := false, page := some .notFound, req := r, scriptBuf := buf }
  | some _ =>
      if env.isScript path then
        { ret := true, req := { r with pathname := some path }, scriptBuf := buf }
      else { ret := false, page := some .forbidden, req := r, scriptBuf := buf }

/-- The end of `init_script_alias` where the loop has stopped in front of a slash: `path`
is a script, and the rest of the string is its path info. -/
def scriptAtSlash (cfg : Config) (buf : Mem) (r : Request) (path pathInfo : Bytes) :
    Translation :=
  let cut : ℤ := (r.requestUri.length : ℤ) - pathInfo.length
  -- a cut in front of `script_name` leaves the string as it is
  let r := { r with
    pathInfo := some pathInfo
    scriptName := some (if 0 ≤ cut then r.requestUri.take cut.toNat else r.requestUri) }
  let translated :=
    match r.pathTranslated with
    | some p => Sum.inr (some p)
    | none => pathTranslation cfg pathInfo
  match translated with
  | .inl page =>
      { ret := false, page := some page, req := r, scriptBuf := buf, cut := some cut }
  | .inr p =>
      { ret := true, scriptBuf := buf, cut := some cut
        req := { r with pathTranslated := p, pathname := some path } }

/-- `init_script_alias` behind its loop. -/
def scriptFinish (cfg : Config) (env : Env) (r : Request) : Scan × Mem → Translation
  | (.fail page, m) => { ret := false, page := some page, req := r, scriptBuf := m }
  | (.atEnd, m) => scriptAtEnd env m r (pathString m)
  | (.atSlash i, m) =>
      let pathInfo := m.cstr i sizeofPathname
      let m := m.store i [0]
      scriptAtSlash cfg m r (pathString m) pathInfo

/-- `init_script_alias`. -/
def initScriptAlias (cfg : Config) (env : Env) (buf : Mem) (r : Request) (a : Alias) :
    Translation :=
  let root := scriptRoot cfg r a
  let rest := r.requestUri.drop a.fakename.length
  if sizeofPathname < root.length + rest.length + 1 then
    { ret := false, page := some .badRequest, req := r, scriptBuf := buf }
  else
    let m := buf.store 0 (root ++ rest ++ [0])
    let r := r.setScriptType (m.cstr a.realname.length sizeofPathname)
    scriptFinish cfg env r (scriptScan env (sizeofPathname + 1) m a.realname.length)

/-! ### `translate_uri` -/

/-- The end of `translate_uri`: scripts outside of a `ScriptAlias`, and the refusal of
a `POST` to anything else. -/
def translateTail (cfg : Config) (buf : Mem) (r : Request) (path : Bytes) : Translation :=
  let r := { r with pathname := some path }
  if cgiMimeType = getMimeType cfg path then
    { ret := true, scriptBuf := buf
      req := { r with
        scriptName := some r.requestUri
        cgiType := if r.httpVersion = .http09 then .nph else .cgi } }
  else if r.method = .post then
    { ret := false, page := some .badRequest, req := r, scriptBuf := buf }
  else { ret := true, req := r, scriptBuf := buf }

/-- Putting a root in front of the rest of the URI, unless the static array is too
small for it: `need` is the size that the source computes. -/
def translateFit (cfg : Config) (buf : Mem) (r : Request) (need : ℕ) (path : Bytes) :
    Translation :=
  if sizeofPathname < need then
    { ret := false, page := some .badRequest, req := r, scriptBuf := buf }
  else translateTail cfg buf r path

/-- The `user_dir` that a URI asks for with a tilde. -/
def tildeDir (cfg : Config) (uri : Bytes) : Option Bytes :=
  if (uri.drop 1).head? = some 126 then cfg.userDir else none

/-- `translate_uri`. -/
def translateUri (cfg : Config) (env : Env) (buf : Mem) (r : Request) : Translation :=
  let uri := r.requestUri
  let fail (page : Page) : Translation :=
    { ret := false, page := some page, req := r, scriptBuf := buf }
  if uri.head? ≠ some 47 then fail .badRequest
  else
    match findAlias cfg.aliases uri with
    | some a =>
        if a.type = .scriptAlias then initScriptAlias cfg env buf r a
        else if sizeofPathname
            < a.realname.length + uri.length - a.fakename.length + 1 then fail .badRequest
        else
          let path := a.realname ++ uri.drop a.fakename.length
          if a.type = .redirect then
            if r.method = .post then fail .badRequest else fail (.movedTemp path)
          else
            { ret := true, req := { r with pathname := some path }, scriptBuf := buf }
    | none =>
        match tildeDir cfg uri with
        | some dir =>
            if uri.drop 2 = [] then fail .badRequest
            else
              match cfg.getHomeDir ((uri.drop 2).takeWhile (· != 47)) with
              | none => fail .notFound
              | some home =>
                  let p := (uri.drop 2).dropWhile (· != 47)
                  translateFit cfg buf r (home.length + 1 + dir.length + p.length + 1)
                    (home ++ str "/" ++ dir ++ p)
        | none =>
            match cfg.vhostRoot with
            | some v =>
                let host := r.host.getD []
                translateFit cfg buf r
                  (v.length + 1 + r.localIpAddr.length + 1 + host.length + 1 + 6
                    + uri.length + 1)
                  (v ++ str "/" ++ r.localIpAddr ++ str "/" ++ host ++ str "/htdocs" ++ uri)
            | none =>
                match cfg.documentRoot with
                | some d =>
                    if cfg.virtualhost then
                      translateFit cfg buf r
                        (d.length + 1 + uri.length + r.localIpAddr.length + 1)
                        (d ++ str "/" ++ r.localIpAddr ++ uri)
                    else translateFit cfg buf r (d.length + 1 + uri.length + 1) (d ++ uri)
                | none => fail .notFound

end Yabwf
