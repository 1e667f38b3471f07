import Yabwf.Alias
import Yabwf.Get

/-!
The parsing part of `request.c`.

* `processLogline`: the request line.
* `processOptionLine`: one line of the header.
* `processHeaderEnd`: decodes and translates the URI and starts the response.
-/

namespace Yabwf

open Memory

/-! ### The request line -/

/-- The version that a request line ends with: `none` for a bogus one. -/
def parseVersion (s : Bytes) : Option HttpVersion :=
  match s.dropWhile (· == 32) with
  | [] => some .http09
  | s =>
      if !(str "HTTP/").isPrefixOf s then none
      else
        match scanUnsigned (s.drop 5) with
        | some (p1, 46 :: s) =>
            match scanUnsigned s with
            | some (p2, _) =>
                if p1 = 0 ∧ p2 = 9 then some .http09
                else if p1 = 1 ∧ p2 = 0 then some .http10
                else if p1 = 1 ∧ p2 = 1 then some .http11
                else none
            | none => none
        | _ => none

/-- The method that a request line begins with. -/
def parseMethod (line : Bytes) : Option HttpMethod :=
  if (str "GET ").isPrefixOf line then some .get
  else if (str "HEAD ").isPrefixOf line then some .head
  else if (str "POST ").isPrefixOf line then some .post
  else none

/-- Storing the target that begins at the offset `start` of the request line: the path,
and the host of an absolute URI. `none` is a bogus absolute URI. -/
def storeTarget (r : Request) (start : ℕ) (target : Bytes) : Option Request :=
  if (str "http://").isPrefixOf target then
    let hostPath := target.drop 7
    let host := hostPath.takeWhile (· != 47)
    let path := hostPath.dropWhile (· != 47)
    if host = [] ∨ path = [] then none
    else some { r with
      requestUri := path
      headerHost := some (start + 7)
      -- the slash gives way to the zero that ends the host
      clientStream := r.clientStream.store (start + 7 + host.length) [0] }
  else some { r with requestUri := target }

/-- `process_logline` behind the target. -/
def loglineVersion (cfg : Config) (env : Env) (s : Bytes) (c : Conn) : Bool × Conn :=
  match parseVersion s with
  | none => (false, sendRBadRequest cfg env c)
  | some version =>
      let c := c.upd fun r => { r with
        httpVersion := version
        keepalive := if version = .http11 then .active else r.keepalive }
      if c.req.method = .head ∧ version = .http09 then (false, sendRBadRequest cfg env c)
      else (true, c.upd fun r => { r with cgiEnvIndex := cfg.commonCgiEnv.length })

/-- `process_logline`. -/
def processLogline (cfg : Config) (env : Env) (c : Conn) : Bool × Conn :=
  let c := c.upd fun r => { r with logline := true }
  let line := c.req.streamString 0
  if line.length < 5 then (false, sendRBadRequest cfg env c)
  else
    match parseMethod line with
    | none => (false, sendRNotImplemented cfg env c)
    | some method =>
        let c := c.upd fun r => { r with method := method, httpVersion := .http10 }
        let blank := if method = .get then 4 else 5
        let start := blank + ((line.drop blank).takeWhile (· == 32)).length
        let target := (line.drop start).takeWhile (· != 32)
        let rest := (line.drop start).dropWhile (· != 32)
        if maxHeaderLength < target.length then (false, sendRBadRequest cfg env c)
        else
          match storeTarget c.req start target with
          | none => (false, sendRBadRequest cfg env c)
          | some r => loglineVersion cfg env rest { c with req := r }

/-! ### The header -/

/-- The end of `process_option_line`: a header that is passed on to scripts. -/
def optionEnv (key value : Bytes) (c : Conn) : Bool × Conn :=
  let r := addCgiEnv c.req key value true
  (r.1, { c with req := r.2 })

/-- `process_option_line` on a header and the offset of its value. -/
def optionValue (cfg : Config) (env : Env) (key value : Bytes) (off : ℕ) (c : Conn) :
    Bool × Conn :=
  if key = str "ACCEPT" then (true, c)
  else if key = str "CONTENT_TYPE" ∧ c.req.contentType = none then
    (true, c.upd fun r => { r with contentType := some off })
  else if key = str "CONTENT_LENGTH" ∧ c.req.contentLength = none then
    (true, c.upd fun r => { r with contentLength := some off })
  else if key = str "CONNECTION" ∧ cfg.kaMax ≠ 0 ∧ c.req.keepalive ≠ .stopped then
    (true, c.upd fun r => { r with
      keepalive := if hasPrefixCase (str "Keep-Alive") value then .active else .stopped })
  else if key = str "HOST" ∧ c.req.headerHost = none then
    (true, c.upd fun r => { r with headerHost := some off })
  else if key = str "IF_MODIFIED_SINCE" ∧ c.req.ifModifiedSince = none then
    (true, c.upd fun r => { r with ifModifiedSince := some off })
  else if key = str "REFERER" then
    -- the header is added twice
    match optionEnv key value (c.upd fun r => { r with headerReferer := some off }) with
    | (true, c) => optionEnv key value c
    | res => res
  else if key = str "RANGE" then
    if c.req.ranges.head?.map Range.stop = some intMax then (true, c)
    else
      match rangeParse c.req value with
      | (false, r) => (false, sendRInvalidRange cfg env { c with req := r })
      | (true, r) => optionEnv key value { c with req := r }
  else if key = str "USER_AGENT" then
    optionEnv key value (c.upd fun r => { r with headerUserAgent := some off })
  else optionEnv key value c

/-- `process_option_line`. -/
def processOptionLine (cfg : Config) (env : Env) (c : Conn) : Bool × Conn :=
  let line := c.req.headerLine.off
  let s := c.req.streamString line
  match strchr 58 s with
  | none => (false, c)
  | some colon =>
      let key := toUpper (s.take colon)
      let c := c.upd fun r => { r with
        clientStream := r.clientStream.store line (key ++ [0]) }
      let blanks := ((s.drop (colon + 1)).takeWhile fun b => b == 32 || b == 9).length
      let value := s.drop (colon + 1 + blanks)
      if value = [] then (true, c)
      else optionValue cfg env key value (line + colon + 1 + blanks) c

/-! ### The end of the header -/

/-- Sending the response that `translate_uri` has chosen. -/
def sendPage (cfg : Config) (env : Env) (page : Page) : Conn → Conn :=
  match page with
  | .badRequest => sendRBadRequest cfg env
  | .forbidden => sendRForbidden cfg env
  | .notFound => sendRNotFound cfg env
  | .movedTemp url => sendRMovedTemp cfg env (.elsewhere url) fun _ => []

/-- `create_temporary_file(1, NULL, 0)`: the descriptor, or `0`. -/
def createTemporaryFile (env : Env) (c : Conn) : ℕ × Conn :=
  match env.mkstemp with
  | none => (0, c)
  | some fd =>
      let c := c.emit (.opened fd)
      if env.unlinkOk then (fd, c) else (0, c.emit (.closed fd))

/-- `process_header_end` for a `POST` that may go on. -/
def acceptPost (cfg : Config) (env : Env) (c : Conn) : ℤ × Conn :=
  let res := createTemporaryFile env c
  let c := res.2.upd fun r => { r with postDataFd := res.1 }
  if res.1 = 0 then (0, sendRError cfg env c)
  else if env.fcntlOk then (1, c)
  else
    (0, ((boaPerror cfg env c).emit (.closed res.1)).upd fun r => { r with postDataFd := 0 })

/-- The virtual host that a request is for. -/
def requestHost (cfg : Config) (r : Request) : Bytes :=
  (strlower ((r.headerHost.map r.streamString).getD cfg.defaultVhost)).takeWhile (· != 58)

/-- The access rules refuse the file name. -/
def accessDenied (cfg : Config) (r : Request) : Bool :=
  cfg.accessControl && r.pathname.map (accessAllow cfg) == some .deny

/-- `process_header_end` from the translation of the URI on. -/
def translateRequest (cfg : Config) (env : Env) (c : Conn) : ℤ × Conn :=
  let t := translateUri cfg env env.scriptBuf c.req
  let c := { c with req := t.req }
  let c :=
    match t.page with
    | none => c
    | some page => sendPage cfg env page c
  if !t.ret then (0, c.squashKa)
  else if accessDenied cfg c.req then (0, sendRForbidden cfg env c)
  else if c.req.method = .post then acceptPost cfg env c
  else if c.req.cgiType ≠ .none then initCgi cfg env c
  else initGet cfg env (c.setStatus .write)

/-- The request with its URI decoded and cleaned. -/
def Request.decoded (r : Request) (uri : Bytes) (query : Option Bytes) : Request :=
  { r with
    requestUri := cleanPathname uri
    queryString := query.orElse fun _ => r.queryString }

/-- The request with the name of its virtual host. -/
def Request.hosted (cfg : Config) (r : Request) : Request :=
  { r with host := some (requestHost cfg r) }

/-- `process_header_end`. -/
def processHeaderEnd (cfg : Config) (env : Env) (c : Conn) : ℤ × Conn :=
  let c := c.emit .headerEnd
  if !c.req.logline then (0, sendRError cfg env c)
  else
    match unescapeUri c.req.requestUri true with
    | (false, _) => (0, sendRBadRequest cfg env c)
    | (true, uri, query) =>
        let c := c.upd fun r => r.decoded uri query
        if c.req.requestUri.head? ≠ some 47 then (0, sendRBadRequest cfg env c)
        else if cfg.vhostRoot = none then translateRequest cfg env c
        else
          let c := c.upd (Request.hosted cfg)
          if checkHost (c.req.host.getD []) < 1 then (0, sendRBadRequest cfg env c)
          else translateRequest cfg env c

end Yabwf
