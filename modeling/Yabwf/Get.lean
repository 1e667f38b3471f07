import Yabwf.Cgi
import Yabwf.Range

/-!
`get.c`: documents and directories.

* `initGet`: opens the document, or its compressed variant, and attaches it to the
  request; `serveFile` is the part behind the search for the file.
* `getDir`: the index file of a directory, its compressed variant, a generated listing
  or a cached one.
* `processGet`: writes a chunk of a mapped document to the socket.
-/

namespace Yabwf

open Memory

/-- `boa_perror`, which answers with an error page. -/
def boaPerror (cfg : Config) (env : Env) (c : Conn) : Conn := sendRError cfg env c

/-- How the search for the file of a directory ends: with a return value for `init_get`,
or with a descriptor, what `fstat` says of it, its contents and its name. -/
inductive DirResult
  | ret (value : ℤ)
  | file (fd : ℕ) (st : Stat) (contents : Mem) (path : Bytes)

/-- A response that is decompressed by a child: its header is written with `fields`. -/
def gunzipResponse (cfg : Config) (env : Env) (path : Bytes) (fields : Conn → Conn)
    (c : Conn) : ℤ × Conn :=
  let c := c.upd fun r => { r with responseStatus := 200, pathname := some path }
  let c :=
    if c.req.httpVersion = .http09 then c
    else (reqFlush (c |> statusLine cfg env " 200 OK-GUNZIP\r\n" |> fields)).2
  if c.req.method = .head then (0, c) else initCgi cfg env c

/-! ### Directories -/

/-- `index_directory`, as far as the request is concerned. -/
def indexDirectory (cfg : Config) (env : Env) (c : Conn) : Bool × Conn :=
  match env.chdir with
  | .denied => (false, sendRForbidden cfg env c)
  | .other => (false, sendRBadRequest cfg env c)
  | .ok =>
      if !env.opendirOk then (false, sendRError cfg env c)
      else if !env.fopenOk then (false, boaPerror cfg env c)
      else (true, c.upd fun r => { r with filesize := env.listingBytes })

/-- The name of the cached listing of a directory. -/
def cacheName (cachedir : Bytes) (st : Stat) : Bytes :=
  (cachedir ++ str "/dir." ++ decimal (toSigned 32 st.dev) ++ str "."
    ++ decimal (toSigned 64 st.ino)).take (maxPathLength - 1)

/-- `get_cachedir_file`. -/
def getCachedirFile (cfg : Config) (env : Env) (cachedir : Bytes) (st : Stat) (c : Conn) :
    DirResult × Conn :=
  let path := cacheName cachedir st
  let found (fd : ℕ) (st' : Stat) (contents : Mem) (c : Conn) : DirResult × Conn :=
    (.file fd { st' with mtime := st.mtime } contents path,
      c.upd fun r => { r with requestUri := cfg.directoryIndex.getD [] })
  let make (c : Conn) : DirResult × Conn :=
    match indexDirectory cfg env c with
    | (false, c) => (.ret (-1), c)
    | (true, c) =>
        match env.reopenCache with
        | .ok fd st' contents => found fd st' contents (c.emit (.opened fd))
        | _ => (.ret (-1), boaPerror cfg env c)
  match env.openFile path with
  | .ok fd st' contents =>
      let c := c.emit (.opened fd)
      if st.mtime < st'.mtime then found fd st' contents c
      else make (c.emit (.closed fd))
  | _ => make c

/-- `get_dir` when there is no index file. -/
def getDirListing (cfg : Config) (env : Env) (st : Stat) (c : Conn) : DirResult × Conn :=
  match cfg.dirmaker, cfg.cachedir with
  | some _, _ =>
      let c := (c.setResponse 200).squashKa
      let c :=
        if c.req.httpVersion = .http09 then c
        else (reqFlush (c |> statusLine cfg env " 200 OK\r\n" |> printLastModified env
          |> reqWrite (str "Content-Type: text/html\r\n\r\n"))).2
      if c.req.method = .head then (.ret 0, c)
      else
        let r := initCgi cfg env c
        (.ret r.1, r.2)
  | none, some cachedir => getCachedirFile cfg env cachedir st c
  | none, none => (.ret (-1), sendRForbidden cfg env c)

/-- `get_dir`. -/
def getDir (cfg : Config) (env : Env) (st : Stat) (c : Conn) : DirResult × Conn :=
  let path := c.req.pathname.getD []
  match cfg.directoryIndex with
  | none => getDirListing cfg env st c
  | some index =>
      if maxPathLength < path.length + index.length + (if cfg.gunzip then 3 else 0) + 1 then
        (.ret (-1), boaPerror cfg env c)
      else
        match env.openFile (path ++ index) with
        | .ok fd st' contents =>
            (.file fd st' contents (path ++ index),
              (c.emit (.opened fd)).upd fun r => { r with requestUri := index })
        | .eacces => (.ret (-1), sendRForbidden cfg env c)
        | .other => (.ret (-1), sendRNotFound cfg env c)
        | .enoent =>
            if !cfg.gunzip then getDirListing cfg env st c
            else
              match env.openFile (path ++ index ++ str ".gz") with
              | .ok fd _ _ =>
                  let c := ((c.emit (.opened fd)).emit (.closed fd)).squashKa
                  let r := gunzipResponse cfg env (path ++ index ++ str ".gz")
                    (fun c => c |> printLastModified env |> reqWrite (str "Content-Type: ")
                      |> reqWrite (getMimeType cfg index) |> reqWrite (str "\r\n\r\n")) c
                  (.ret r.1, r.2)
              | _ => getDirListing cfg env st c

/-! ### Documents -/

/-- Moving the start of the first range. -/
def Request.advance (r : Request) (n : ℕ) : Request :=
  match r.ranges with
  | [] => r
  | range :: ranges =>
      { r with ranges := { range with start := (range.start + n) % 2 ^ 64 } :: ranges }

/-- How many bytes of the first range are to be sent. -/
def Request.rangeLength (r : Request) : ℕ :=
  let range := r.ranges.headD ⟨0, 0⟩
  (range.stop + 2 ^ 64 - range.start + 1) % 2 ^ 64

/-- The end of `init_get`: what fits of a mapped document goes into the buffer behind
the header. -/
def fillBuffer (cfg : Config) (env : Env) (c : Conn) : ℤ × Conn :=
  match c.req.dataMem with
  | none => (1, c)
  | some mem =>
      let bytesFree := bufferSize - c.req.bufferEnd
      if bytesFree ≤ 256 then (1, c)
      else if env.sigbus then (0, sendRError cfg env (resetOutputBuffer c))
      else
        let want := c.req.rangeLength % 2 ^ 32
        let n := min bytesFree want
        let start := (c.req.ranges.headD ⟨0, 0⟩).start
        let c := (c.append (mem.slice start n)).upd fun r =>
          { r.advance n with bytesWritten := r.bytesWritten + n }
        if n = want then completeResponse cfg c else (1, c)

/-- `init_get` from the header of the response on. -/
def sendFileHeader (cfg : Config) (env : Env) (path : Bytes) (c : Conn) : ℤ × Conn :=
  let send (c : Conn) : ℤ × Conn :=
    if c.req.method = .head then completeResponse cfg c
    else fillBuffer cfg env (c.emit (.served path))
  if c.req.ranges = [] then
    match rangesFixup cfg env (c.upd fun r => { r with ranges := [⟨0, ulongMax⟩] }) with
    | (false, c) => (0, c)
    | (true, c) => send (sendRRequestOk cfg env c)
  else send (sendRPartialContent cfg env c)

/-- Attaching the open file: it is mapped if it is small enough, or kept open. -/
def attachFile (env : Env) (fd : ℕ) (contents : Mem) (c : Conn) : Conn :=
  if maxFileMmap < c.req.filesize ∨ env.mmapOk = false then
    c.upd fun r => { r with dataFd := fd, status := .ioShuffle, dataFile := contents }
  else
    (c.upd fun r => { r with mmapEntry := true, dataMem := some contents }).emit (.closed fd)

/-- `init_get` behind the search for the file. -/
def serveFile (cfg : Config) (env : Env) (fd : ℕ) (st : Stat) (contents : Mem) (path : Bytes)
    (c : Conn) : ℤ × Conn :=
  if st.kind ≠ .regular then (0, (sendRBadRequest cfg env c).emit (.closed fd))
  else if (c.req.ifModifiedSince.map fun off =>
      env.modifiedSince st.mtime (c.req.streamString off)) = some false then
    (0, (sendRNotModified cfg env c).emit (.closed fd))
  else
    let c := c.upd fun r => { r with filesize := st.size, lastModified := st.mtime }
    if st.size = 0 then
      if c.req.httpVersion = .http11 then (0, (sendRNoContent cfg env c).emit (.closed fd))
      else (0, (sendRRequestOk cfg env c).emit (.closed fd))
    else
      match (if c.req.ranges = [] then (true, c) else rangesFixup cfg env c) with
      | (false, c) => (0, c.emit (.closed fd))
      | (true, c) => sendFileHeader cfg env path (attachFile env fd contents c)

/-- The URL that a directory without its slash is moved to, unless it is too long. -/
def directoryUrl (cfg : Config) (r : Request) : Option Bytes :=
  let host := r.host.getD cfg.serverName
  let sizeofBuffer := 3 * maxPathLength + 128
  if cfg.serverPort ≠ 80 then
    let port := simpleItoa cfg.serverPort
    if sizeofBuffer < 7 + host.length + 1 + port.length + r.requestUri.length + 1 then none
    else some (str "http://" ++ host ++ str ":" ++ port ++ r.requestUri ++ str "/")
  else if sizeofBuffer < 7 + host.length + r.requestUri.length + 1 then none
  else some (str "http://" ++ host ++ r.requestUri ++ str "/")

/-- `init_get` on a file that could be opened. -/
def initGetOpened (cfg : Config) (env : Env) (fd : ℕ) (st : Stat) (contents : Mem)
    (c : Conn) : ℤ × Conn :=
  let path := c.req.pathname.getD []
  if cfg.accessControl ∧ accessAllow cfg path = .deny then (0, sendRForbidden cfg env c)
  else if st.kind ≠ .directory then serveFile cfg env fd st contents path c
  else
    let c := c.emit (.closed fd)
    if !endsInSlash path then
      match directoryUrl cfg c.req with
      | none => (0, boaPerror cfg env c)
      | some url => (0, sendRMovedPerm cfg env url c)
    else
      match getDir cfg env st c with
      | (.ret value, c) => (if value < 0 then 0 else value, c)
      | (.file fd st contents path, c) =>
          if fd = 0 ∨ fd = 1 then (fd, c) else serveFile cfg env fd st contents path c

/-- The answer to a document that cannot be opened. -/
def openFailed (cfg : Config) (env : Env) (res : OpenResult) (c : Conn) : ℤ × Conn :=
  match res with
  | .enoent => (0, sendRNotFound cfg env c)
  | .eacces => (0, sendRForbidden cfg env c)
  | _ => (0, sendRBadRequest cfg env c)

/-- `init_get`. -/
def initGet (cfg : Config) (env : Env) (c : Conn) : ℤ × Conn :=
  let path := c.req.pathname.getD []
  match env.openFile path with
  | .ok fd st contents => initGetOpened cfg env fd st contents (c.emit (.opened fd))
  | .enoent =>
      if !cfg.gunzip then openFailed cfg env .enoent c
      else if maxPathLength < path.length + 4 then (0, sendRBadRequest cfg env c)
      else
        match env.openFile (path ++ str ".gz") with
        | .ok fd _ _ =>
            gunzipResponse cfg env (path ++ str ".gz")
              (fun c => c |> printContentType cfg |> printLastModified env |> reqWrite crlf)
              ((c.emit (.opened fd)).emit (.closed fd))
        | _ => openFailed cfg env .enoent c
  | res => openFailed cfg env res c

/-- `process_get`. -/
def processGet (cfg : Config) (env : Env) (c : Conn) : ℤ × Conn :=
  if c.req.method = .head then completeResponse cfg c
  else
    let bytesToWrite := min (c.req.rangeLength % 2 ^ 32) cfg.systemBufsize
    if env.sigbus then (0, c.die)
    else
      match c.pop with
      | (.again, c) => (-1, c)
      | (.intr, c) | (.error, c) => (0, c.die)
      | (.accept n, c) =>
          let n := min n bytesToWrite
          let start := (c.req.ranges.headD ⟨0, 0⟩).start
          let c := c.emit (.wrote c.req.bufferStart c.req.bufferEnd
            ((c.req.dataMem.getD fun _ => 0).slice start n))
          let c := c.upd fun r => { r.advance n with bytesWritten := r.bytesWritten + n }
          if c.req.rangeLength = 0 then completeResponse cfg c else (1, c)

end Yabwf
