import Yabwf.Lib.Memory

/-!
The data model: the constants of `defines.h`, the enumerations and the request of
`globals.h`, the server's global variables, and what the kernel and the C library
answer while a request is worked on.

* `Config`: the globals that the configuration file sets, and the compile time
  options that select code.
* `Request`: `struct request`. Pointers into `client_stream` are offsets, a pointer
  that may go into `client_stream` or into `buffer` is a `Ptr`, descriptors are
  numbers with `0` for none.
* `Env`: the answers of one visit of `process_requests` to a request. Every system
  call that the visit may make finds its result here, so that a statement about all
  environments is a statement about all outcomes.
* `Event`, `Conn`: the system calls and decisions that the claims are about are
  recorded in order; a connection is a request, the answers that the client socket
  still has in store, and the record.

Allocation always succeeds, and nothing of the logs is recorded.
-/

namespace Yabwf

open Memory

/-- Strings and buffers: bytes, without the terminating zero. -/
abbrev Bytes := List UInt8

/-- A string literal of the source. -/
def str (s : String) : Bytes := s.toList.map fun c => c.toNat.toUInt8

/-! ### `defines.h` -/

/-- `BUFFER_SIZE`; the array `buffer` has one byte more. -/
def bufferSize : ℕ := 4096

/-- `CLIENT_STREAM_SIZE`. -/
def clientStreamSize : ℕ := 8192

/-- `MAX_HEADER_LENGTH`. -/
def maxHeaderLength : ℕ := 1024

/-- `MAX_PATH_LENGTH`, the `PATH_MAX` of Linux. -/
def maxPathLength : ℕ := 4096

/-- `MAX_FILE_MMAP`. -/
def maxFileMmap : ℕ := 100 * 1024

/-- `CGI_ENV_MAX`. -/
def cgiEnvMax : ℕ := 100

/-- `CGI_MIME_TYPE`. -/
def cgiMimeType : Bytes := str "application/x-httpd-cgi"

/-- `SERVER_VERSION`. -/
def serverVersion : Bytes := str "YABWF/0.0.2"

/-- `CRLF`. -/
def crlf : Bytes := str "\r\n"

/-- `INT_MAX`. -/
def intMax : ℕ := 2 ^ 31 - 1

/-- The `unsigned long` that `-1` is converted to. -/
def ulongMax : ℕ := 2 ^ 64 - 1

/-- The `unsigned` that `-1` is converted to. -/
def uintMax : ℕ := 2 ^ 32 - 1

/-! ### `globals.h` -/

/-- `enum REQ_STATUS`. -/
inductive ReqStatus
  | readHeader | oneCr | oneLf | twoCr
  | bodyRead | bodyWrite
  | write
  | pipeRead | pipeWrite
  | ioShuffle
  | done
  | timedOut
  | dead
  deriving DecidableEq, Repr

/-- The value of the enumerator, for the comparisons of the source. -/
def ReqStatus.code : ReqStatus → ℕ
  | readHeader => 0 | oneCr => 1 | oneLf => 2 | twoCr => 3
  | bodyRead => 4 | bodyWrite => 5
  | write => 6
  | pipeRead => 7 | pipeWrite => 8
  | ioShuffle => 9
  | done => 10
  | timedOut => 11
  | dead => 12

/-- `enum HTTP_METHOD`, with the zero that a fresh request holds. Only `GET`, `HEAD`
and `POST` are ever assigned. -/
inductive HttpMethod
  | unset | get | head | post
  deriving DecidableEq, Repr

/-- `enum HTTP_VERSION`, with the zero that a fresh request holds. -/
inductive HttpVersion
  | unset | http09 | http10 | http11
  deriving DecidableEq, Repr

/-- `enum KA_STATUS`. -/
inductive KaStatus
  | inactive | active | stopped
  deriving DecidableEq, Repr

/-- `enum CGI_STATUS`. -/
inductive CgiStatus
  | parse | buffer | done
  deriving DecidableEq, Repr

/-- `enum CGI_TYPE`, with the zero of a request that is no script. -/
inductive CgiType
  | none | nph | cgi
  deriving DecidableEq, Repr

/-- `enum ALIAS`. -/
inductive AliasType
  | alias | scriptAlias | redirect
  deriving DecidableEq, Repr

/-- `enum access_type`. -/
inductive AccessType
  | deny | allow
  deriving DecidableEq, Repr

/-- `struct range`. -/
structure Range where
  start : ℕ
  stop : ℕ
  deriving DecidableEq, Repr

/-- `struct alias`, without the link and the stored lengths. -/
structure Alias where
  fakename : Bytes
  realname : Bytes
  type : AliasType
  deriving DecidableEq, Repr

/-- The array that a pointer of the request points into. -/
inductive Region
  | clientStream | buffer
  deriving DecidableEq, Repr

/-- A pointer into one of the two arrays. -/
structure Ptr where
  region : Region := .clientStream
  off : ℕ := 0
  deriving DecidableEq, Repr

/-- Moving a pointer forward. -/
def Ptr.add (p : Ptr) (n : ℕ) : Ptr := { p with off := p.off + n }

/-- `struct request`. The fields before `fd` are the ones that `sanitize_request`
zeroes, and their default values are the zeroes. -/
structure Request where
  status : ReqStatus := .readHeader
  keepalive : KaStatus := .inactive
  httpVersion : HttpVersion := .unset
  method : HttpMethod := .unset
  responseStatus : ℕ := 0
  cgiType : CgiType := .none
  cgiStatus : CgiStatus := .parse
  pollfdId : ℕ := 0
  pathname : Option Bytes := none
  ranges : List Range := []
  numranges : ℕ := 0
  dataFd : ℕ := 0
  filesize : ℕ := 0
  filepos : ℕ := 0
  bytesWritten : ℕ := 0
  /-- `data_mem`, as the contents it shows. -/
  dataMem : Option Mem := none
  /-- `logline`, which points at `client_stream` once it is set. -/
  logline : Bool := false
  headerLine : Ptr := {}
  headerEnd : Ptr := {}
  parsePos : ℕ := 0
  bufferStart : ℕ := 0
  bufferEnd : ℕ := 0
  ifModifiedSince : Option ℕ := none
  lastModified : ℕ := 0
  cgiEnvIndex : ℕ := 0
  headerHost : Option ℕ := none
  headerUserAgent : Option ℕ := none
  headerReferer : Option ℕ := none
  host : Option Bytes := none
  postDataFd : ℕ := 0
  pathInfo : Option Bytes := none
  pathTranslated : Option Bytes := none
  scriptName : Option Bytes := none
  queryString : Option Bytes := none
  contentType : Option ℕ := none
  contentLength : Option ℕ := none
  /-- Whether `mmap_entry_var` points to an entry. -/
  mmapEntry : Bool := false
  fd : ℕ
  localIpAddr : Bytes := []
  remoteIpAddr : Bytes := []
  remotePort : ℕ := 0
  kacount : ℕ := 0
  clientStreamPos : ℕ := 0
  buffer : Mem := fun _ => 0
  requestUri : Bytes := []
  clientStream : Mem := fun _ => 0
  cgiEnv : ℕ → Option Bytes := fun _ => none
  /-- The contents of the open file behind `data_fd`. -/
  dataFile : Mem := fun _ => 0

/-! ### Global variables and compile time options -/

/-- The alias table: the chain of each bucket. -/
abbrev AliasTable := ℕ → List Alias

/-- The globals that the configuration sets, and the options that select code. -/
structure Config where
  /-- `GUNZIP` is defined. -/
  gunzip : Bool := true
  /-- `ACCESS_CONTROL` is defined. -/
  accessControl : Bool := true
  /-- `HAVE_SENDFILE` is defined. -/
  haveSendfile : Bool := true
  documentRoot : Option Bytes := none
  userDir : Option Bytes := none
  directoryIndex : Option Bytes := none
  dirmaker : Option Bytes := none
  cachedir : Option Bytes := none
  vhostRoot : Option Bytes := none
  virtualhost : Bool := false
  defaultVhost : Bytes := str "default"
  serverName : Bytes := []
  serverPort : ℕ := 80
  defaultType : Bytes := str "text/plain"
  defaultCharset : Option Bytes := none
  kaTimeout : ℕ := 0
  kaMax : ℕ := 0
  singlePostLimit : ℤ := 1024 * 1024
  concealServerIdentity : Bool := false
  systemBufsize : ℕ := 32768
  commonCgiEnv : List Bytes := []
  aliases : AliasTable := fun _ => []
  /-- The extensions and types in the order of `add_mime_type`. -/
  mimeTypes : List (Bytes × Bytes) := []
  /-- The access rules in order. -/
  accessNodes : List (Bytes × AccessType) := []
  /-- The C library's `fnmatch` of a pattern and a file name. -/
  fnmatch : Bytes → Bytes → Bool := fun _ _ => false
  /-- `get_home_dir`. -/
  getHomeDir : Bytes → Option Bytes := fun _ => none

/-! ### The kernel -/

/-- The outcome of a `write` or `sendfile`: some of the offered bytes are taken,
`EAGAIN`, `EINTR`, or another error. -/
inductive WriteResult
  | accept (n : ℕ)
  | again
  | intr
  | error
  deriving DecidableEq, Repr

/-- The outcome of a `read`: the bytes at hand, none of them at the end of the file,
`EAGAIN`, `EINTR`, or another error. -/
inductive ReadResult
  | data (bs : Bytes)
  | again
  | intr
  | error
  deriving DecidableEq, Repr

/-- What `st_mode` says. -/
inductive FileKind
  | directory | regular | other
  deriving DecidableEq, Repr

/-- `struct stat`. -/
structure Stat where
  kind : FileKind
  size : ℕ := 0
  mtime : ℕ := 0
  dev : ℕ := 0
  ino : ℕ := 0
  deriving DecidableEq, Repr

/-- The outcome of `open`: a descriptor with what `fstat` says of it and the contents
of the file, or an `errno`. -/
inductive OpenResult
  | ok (fd : ℕ) (st : Stat) (contents : Mem)
  | enoent
  | eacces
  | other

/-- The outcome of `chdir` in `index_directory`. -/
inductive ChdirResult
  | ok
  | denied
  | other
  deriving DecidableEq, Repr

/-- What the kernel and the C library answer during one visit to a request. -/
structure Env where
  /-- The client socket's answers to successive writes. -/
  sock : List WriteResult := []
  /-- `read` on the client socket, for the header or the body. -/
  sockRead : ReadResult := .again
  /-- `read` on the pipe of a script. -/
  pipeRead : ReadResult := .again
  /-- `read` on the document in `io_shuffle`, after any restarts: how many bytes there
  are to be had. -/
  fileRead : WriteResult := .again
  /-- Whether `lseek` works in `io_shuffle`. -/
  lseekOk : Bool := true
  /-- `write` to the file that takes the body of a `POST`. -/
  postWrite : WriteResult := .again
  /-- `mkstemp`. -/
  mkstemp : Option ℕ := none
  unlinkOk : Bool := true
  fcntlOk : Bool := true
  /-- `open` for reading. -/
  openFile : Bytes → OpenResult := fun _ => .enoent
  /-- `open` of the cached listing after it has been written anew. -/
  reopenCache : OpenResult := .enoent
  stat : Bytes → Option FileKind := fun _ => none
  /-- `access(·, R_OK|X_OK)` succeeds. -/
  accessRx : Bytes → Bool := fun _ => false
  chdir : ChdirResult := .ok
  opendirOk : Bool := true
  fopenOk : Bool := true
  /-- The length of the listing that `index_directory` writes. -/
  listingBytes : ℕ := 0
  /-- `pipe`: the read end and the write end. -/
  pipe : Option (ℕ × ℕ) := none
  nonblockOk : Bool := true
  forkOk : Bool := false
  /-- Whether `find_mmap` finds an entry. -/
  mmapOk : Bool := false
  /-- Whether touching the mapping raises `SIGBUS`. -/
  sigbus : Bool := false
  /-- `rfc822_time_buf`, with `0` for now. -/
  rfc822 : ℕ → Bytes := fun _ => []
  modifiedSince : ℕ → Bytes → Bool := fun _ _ => true
  /-- The static `pathname` of `init_script_alias`, as earlier requests left it. -/
  scriptBuf : Mem := fun _ => 0
  /-- Whether `SIGTERM` has been caught. -/
  sigterm : Bool := false

/-! ### The record -/

/-- What is recorded of a connection. -/
inductive Event
  /-- Bytes are appended to `req->buffer` at `buffer_end`. -/
  | buffered (bs : Bytes)
  /-- The socket takes bytes from `req->buffer` at `buffer_start`. -/
  | flushed (bs : Bytes)
  /-- The socket takes bytes from a handler, while the buffer stands at these
  indices. -/
  | wrote (bufferStart bufferEnd : ℕ) (bs : Bytes)
  /-- The output buffer is reset. -/
  | dropped
  /-- The status becomes `DEAD`. -/
  | died
  /-- A status line has been queued. -/
  | headed
  /-- `print_ka_phrase` has queued `Connection: Keep-Alive`. -/
  | promised
  /-- The server process opens a descriptor. -/
  | opened (fd : ℕ)
  /-- The server process closes a descriptor. -/
  | closed (fd : ℕ)
  /-- `process_header_end` is entered. -/
  | headerEnd
  /-- A file is attached as the body of the response. -/
  | served (path : Bytes)
  /-- A child is started that runs `gunzip` on the file. -/
  | gunzipped (path : Bytes)
  /-- A child is started that executes the file as a script. -/
  | executed (path : Bytes)
  /-- A child is started that lists the directory. -/
  | listed (path : Bytes)
  /-- `free_request` recycles the request for the next one of the connection, or closes
  the socket and gives the request to `request_free`; with the bytes of `req->buffer`
  that have not been sent and the status. -/
  | freed (recycled : Bool) (unsent : Bytes) (status : ReqStatus)
  deriving DecidableEq, Repr

/-- A connection: the request, the answers that the client socket has in store for the
present visit, the record, and whether the request is on `request_free`. -/
structure Conn where
  req : Request
  tape : List WriteResult := []
  trace : List Event := []
  free : Bool := false

namespace Conn

/-- Changing the request. -/
def upd (f : Request → Request) (c : Conn) : Conn := { c with req := f c.req }

/-- Recording an event. -/
def emit (e : Event) (c : Conn) : Conn := { c with trace := c.trace ++ [e] }

/-- Recording that something has been queued, unless the request has failed. -/
def note (e : Event) (c : Conn) : Conn :=
  if ReqStatus.done.code < c.req.status.code then c else c.emit e

/-- The socket's answer to the next write; a socket that has none left is full. -/
def pop (c : Conn) : WriteResult × Conn :=
  match c.tape with
  | [] => (.again, c)
  | r :: t => (r, { c with tape := t })

@[simp] lemma upd_req (f : Request → Request) (c : Conn) : (c.upd f).req = f c.req := rfl
@[simp] lemma upd_tape (f : Request → Request) (c : Conn) : (c.upd f).tape = c.tape := rfl
@[simp] lemma upd_trace (f : Request → Request) (c : Conn) : (c.upd f).trace = c.trace := rfl
@[simp] lemma upd_free (f : Request → Request) (c : Conn) : (c.upd f).free = c.free := rfl
@[simp] lemma emit_req (e : Event) (c : Conn) : (c.emit e).req = c.req := rfl
@[simp] lemma emit_tape (e : Event) (c : Conn) : (c.emit e).tape = c.tape := rfl
@[simp] lemma emit_trace (e : Event) (c : Conn) : (c.emit e).trace = c.trace ++ [e] := rfl
@[simp] lemma emit_free (e : Event) (c : Conn) : (c.emit e).free = c.free := rfl

@[simp] lemma note_req (e : Event) (c : Conn) : (c.note e).req = c.req := by
  rw [note]
  split_ifs <;> rfl

@[simp] lemma note_tape (e : Event) (c : Conn) : (c.note e).tape = c.tape := by
  rw [note]
  split_ifs <;> rfl

@[simp] lemma note_free (e : Event) (c : Conn) : (c.note e).free = c.free := by
  rw [note]
  split_ifs <;> rfl

end Conn

end Yabwf
