import Yabwf.Pipe
import Yabwf.Read

/-!
The driving part of `request.c`: one connection, from its acceptance to its end.

* `processRequest`: one visit of `process_requests`, up to the switch on the return
  value: the buffer is flushed, then the handler for the status runs.
* `freeRequest`: the end of a request, which recycles it for the next one of the
  connection or closes the socket.
* `step`: what happens to the connection: a visit, a time-out or an error found by
  `update_blocked`, or, for a request on `request_free`, a new connection.
-/

namespace Yabwf

open Memory

/-- `sanitize_request`: everything in front of `fd` is zeroed. -/
def sanitizeRequest (cfg : Config) (newReq : Bool) (r : Request) : Request :=
  let bytesToMove := r.clientStreamPos - r.parsePos
  { fd := r.fd
    localIpAddr := r.localIpAddr
    remoteIpAddr := r.remoteIpAddr
    remotePort := r.remotePort
    kacount := if newReq then cfg.kaMax else r.kacount
    clientStreamPos := if newReq then 0 else bytesToMove
    buffer := r.buffer
    requestUri := r.requestUri
    clientStream :=
      if newReq then r.clientStream
      else r.clientStream.store 0 (r.clientStream.slice r.parsePos bytesToMove)
    cgiEnv := r.cgiEnv
    dataFile := r.dataFile }

/-- Closing the descriptors that the request still holds. -/
def closeFds (c : Conn) : Conn :=
  let c := if c.req.dataFd ≠ 0 then c.emit (.closed c.req.dataFd) else c
  if c.req.postDataFd ≠ 0 then c.emit (.closed c.req.postDataFd) else c

/-- `free_request` behind its flush. -/
def releaseRequest (cfg : Config) (c : Conn) : Conn :=
  let c := c.upd fun r => { r with
    responseStatus :=
      if r.status = .timedOut ∧ r.responseStatus = 0 then 408 else r.responseStatus }
  let c := closeFds c
  if c.req.status.code < ReqStatus.timedOut.code ∧ c.req.keepalive = .active ∧
      c.req.responseStatus < 500 ∧ c.req.responseStatus ≠ 0 ∧ 0 < c.req.kacount then
    (c.emit (.freed true c.req.pending c.req.status)).upd fun r =>
      { sanitizeRequest cfg false r with kacount := r.kacount - 1 }
  else { c.emit (.freed false c.req.pending c.req.status) with free := true }

/-- `free_request`. -/
def freeRequest (cfg : Config) (c : Conn) : Conn :=
  if c.req.bufferEnd ≠ 0 ∧ c.req.status.code < ReqStatus.timedOut.code then
    match reqFlush (c.setStatus .done) with
    | (i, c) =>
        if i = -2 then releaseRequest cfg (c.setStatus .dead)
        else if 0 < i then c
        else releaseRequest cfg c
  else releaseRequest cfg c

/-- The `DONE` case of `process_requests`. -/
def processDone (c : Conn) : ℤ × Conn :=
  match reqFlush c with
  | (retval, c) =>
      if retval = -2 then (0, c.setStatus .dead)
      else if 0 < retval then (1, c)
      else (retval, c)

/-- The switch on the status in `process_requests`. -/
def handleStatus (cfg : Config) (env : Env) (c : Conn) : ℤ × Conn :=
  match c.req.status with
  | .readHeader | .oneCr | .oneLf | .twoCr => readHeader cfg env c
  | .bodyRead => readBody cfg env c
  | .bodyWrite => writeBody cfg env c
  | .write => processGet cfg env c
  | .pipeRead => readFromPipe cfg env c
  | .pipeWrite => writeFromPipe c
  | .ioShuffle => if cfg.haveSendfile then ioShuffleSendfile cfg c else ioShuffle cfg env c
  | .done => processDone c
  | .timedOut | .dead =>
      (0, ((c.upd fun r => { r with bufferEnd := 0 }).emit .dropped).squashKa)

/-- The flush in front of the switch; `1` stands for success. -/
def flushFirst (c : Conn) : ℤ × Conn :=
  if c.req.bufferEnd ≠ 0 ∧ c.req.status.code < ReqStatus.timedOut.code then
    match reqFlush c with
    | (retval, c) =>
        if retval = -2 then (0, c.setStatus .dead)
        else if 0 ≤ retval then (1, c)
        else (retval, c)
  else (1, c)

/-- `process_requests` on one request, up to the switch on the return value. -/
def processRequest (cfg : Config) (env : Env) (c : Conn) : ℤ × Conn :=
  let res := flushFirst c
  let res := if res.1 = 1 then handleStatus cfg env res.2 else res
  (res.1, if env.sigterm then res.2.squashKa else res.2)

/-- A visit of `process_requests` to a request, with the answers that the socket gives
in its course. -/
def visit (cfg : Config) (env : Env) (c : Conn) : Conn :=
  match processRequest cfg env { c with tape := env.sock } with
  | (retval, c) =>
      if retval = 0 then freeRequest cfg c
      else if retval = 1 ∨ retval = -1 then c
      else c.die

/-- `get_request` for a request from `request_free`; `tooMany` says that there are too
many connections. -/
def getRequest (cfg : Config) (env : Env) (fd : ℕ) (localIp remoteIp : Bytes) (port : ℕ)
    (tooMany : Bool) (c : Conn) : Conn :=
  let c := { c with tape := env.sock, free := false }
  let c := c.upd fun r => { sanitizeRequest cfg true r with
    fd := fd
    localIpAddr := localIp
    remoteIpAddr := remoteIp
    remotePort := port }
  if tooMany then
    (sendRServiceUnavailable cfg env
      (c.upd fun r => { r with httpVersion := .http10, method := .get })).setStatus .done
  else c

/-- What happens to a request. -/
inductive Input
  /-- `process_requests` gets to it. -/
  | visit (env : Env)
  /-- `update_blocked` finds that it has timed out, or that its socket is in error. -/
  | expire (timedOut : Bool)
  /-- `get_request` takes it from `request_free`. -/
  | accept (env : Env) (fd : ℕ) (localIp remoteIp : Bytes) (port : ℕ) (tooMany : Bool)

/-- One step of a request. -/
def step (cfg : Config) (c : Conn) : Input → Conn
  | .visit env => if c.free then c else visit cfg env c
  | .expire timedOut =>
      if c.free then c else if timedOut then c.setStatus .timedOut else c.die
  | .accept env fd localIp remoteIp port tooMany =>
      if c.free then getRequest cfg env fd localIp remoteIp port tooMany c else c

/-- A request that has never been used. -/
def Conn.initial : Conn := { req := { fd := 0 }, free := true }

end Yabwf
