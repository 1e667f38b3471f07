import Yabwf.Response

/-!
`cgi.c`: the environment of a script, and starting a child for a script, for `gunzip`
or for a directory listing. What the child does on its own is not modelled; the record
says what it has been started for.
-/

namespace Yabwf

/-- `env_gen_extra`. -/
def envGen (key value : Bytes) : Bytes := key ++ str "=" ++ value

/-- `add_cgi_env`. -/
def addCgiEnv (r : Request) (key value : Bytes) (httpPrefix : Bool) : Bool × Request :=
  if r.cgiEnvIndex < cgiEnvMax then
    let p := (if httpPrefix then str "HTTP_" else []) ++ envGen key value
    (true, { r with
      cgiEnv := Function.update r.cgiEnv r.cgiEnvIndex (some p)
      cgiEnvIndex := r.cgiEnvIndex + 1 })
  else (false, r)

/-- The string that an offset into `client_stream` points to. -/
def Request.streamString (r : Request) (off : ℕ) : Bytes :=
  r.clientStream.cstr off (clientStreamSize - off)

/-- The variables that `complete_env` adds, in order. -/
def completeEnvVars (cfg : Config) (r : Request) : List (Bytes × Bytes) :=
  let method : Bytes :=
    match r.method with
    | .post => str "POST"
    | .head => str "HEAD"
    | .get => str "GET"
    | .unset => str "UNKNOWN"
  let given (key : String) (value : Option Bytes) : List (Bytes × Bytes) :=
    (value.map fun v => (str key, v)).toList
  [(str "REQUEST_METHOD", method)]
    ++ given "HTTP_HOST" (r.headerHost.map r.streamString)
    ++ [(str "SERVER_ADDR", r.localIpAddr),
        (str "SERVER_PROTOCOL", httpVerString r.httpVersion),
        (str "REQUEST_URI", r.requestUri)]
    ++ given "PATH_INFO" r.pathInfo
    ++ given "PATH_TRANSLATED" r.pathTranslated
    ++ [(str "SCRIPT_NAME", r.scriptName.getD [])]
    ++ given "QUERY_STRING" r.queryString
    ++ [(str "REMOTE_ADDR", r.remoteIpAddr), (str "REMOTE_PORT", simpleItoa r.remotePort)]
    ++ (if r.method = .post then
          [(str "CONTENT_TYPE", (r.contentType.map r.streamString).getD cfg.defaultType)]
            ++ given "CONTENT_LENGTH" (r.contentLength.map r.streamString)
        else [])

/-- Adding variables until one does not fit. -/
def addCgiEnvs : List (Bytes × Bytes) → Request → Bool × Request
  | [], r => (true, r)
  | (key, value) :: vars, r =>
      match addCgiEnv r key value false with
      | (true, r) => addCgiEnvs vars r
      | (false, r) => (false, r)

/-- `complete_env`. -/
def completeEnv (cfg : Config) (r : Request) : Bool × Request :=
  let r := { r with
    cgiEnv := fun i => if i < cfg.commonCgiEnv.length then cfg.commonCgiEnv[i]? else r.cgiEnv i }
  match addCgiEnvs (completeEnvVars cfg r) r with
  | (true, r) =>
      if r.cgiEnvIndex < cgiEnvMax + 1 then
        (true, { r with cgiEnv := Function.update r.cgiEnv r.cgiEnvIndex none })
      else (false, r)
  | (false, r) => (false, r)

/-- Whether a path is the name of a directory, as far as its last character tells. -/
def endsInSlash (path : Bytes) : Bool := path.getLast? == some 47

/-- What the child is started for. -/
def childEvent (cfg : Config) (r : Request) : List Event :=
  let path := r.pathname.getD []
  if r.cgiType ≠ .none then [.executed path]
  else if endsInSlash path then [.listed path]
  else if cfg.gunzip then [.gunzipped path]
  else []

/-- Closing both ends of a pipe. -/
def closePipe (pipes : Option (ℕ × ℕ)) (c : Conn) : Conn :=
  match pipes with
  | some (readEnd, writeEnd) => (c.emit (.closed readEnd)).emit (.closed writeEnd)
  | none => c

/-- The parent after a successful `fork` in `init_cgi`. -/
def initCgiParent (pipes : Option (ℕ × ℕ)) (c : Conn) : ℤ × Conn :=
  let c :=
    if c.req.method = .post then
      (c.emit (.closed c.req.postDataFd)).upd fun r => { r with postDataFd := 0 }
    else c
  match pipes with
  | none => (0, c)
  | some (readEnd, writeEnd) =>
      let c := c.emit (.closed writeEnd)
      (1, c.upd fun r =>
        let start : Ptr := ⟨.buffer, if r.cgiType = .cgi then bufferSize / 2 else 0⟩
        { r with
          dataFd := readEnd
          status := .pipeRead
          cgiStatus := if r.cgiType = .cgi then .parse else .buffer
          headerLine := start
          headerEnd := start
          filepos := 0 })

/-- `init_cgi` from the `fork` on. -/
def initCgiFork (cfg : Config) (env : Env) (pipes : Option (ℕ × ℕ)) (c : Conn) : ℤ × Conn :=
  if env.forkOk then
    initCgiParent pipes { c with trace := c.trace ++ childEvent cfg c.req }
  else (0, closePipe pipes (sendRError cfg env c))

/-- `init_cgi` behind the environment. -/
def initCgiPipes (cfg : Config) (env : Env) (c : Conn) : ℤ × Conn :=
  if c.req.cgiType = .cgi ∨ (c.req.cgiType = .none ∧ endsInSlash (c.req.pathname.getD [])) then
    match env.pipe with
    | none => (0, c)
    | some (readEnd, writeEnd) =>
        let c := (c.emit (.opened readEnd)).emit (.opened writeEnd)
        if env.nonblockOk then initCgiFork cfg env (some (readEnd, writeEnd)) c
        else (0, closePipe (some (readEnd, writeEnd)) c)
  else initCgiFork cfg env none c

/-- `init_cgi`. -/
def initCgi (cfg : Config) (env : Env) (c : Conn) : ℤ × Conn :=
  let c := c.squashKa
  if c.req.cgiType = .none then initCgiPipes cfg env c
  else
    match completeEnv cfg c.req with
    | (true, r) => initCgiPipes cfg env { c with req := r }
    | (false, r) => (0, { c with req := r })

end Yabwf
