import Yabwf.Release

/-!
`queue.c`: the lists of requests, and what a request that is not ready waits for.

* `blockRequest`: what `block_request` arms for a request that a handler has blocked.
* `freeRequestPlace`: the list that `free_request` leaves a request on.
-/

namespace Yabwf

/-- The descriptors and directions that a request is armed for: the socket to be read or
written, `data_fd` to be read, `post_data_fd` to be written. -/
inductive Wait
  | socketRead | socketWrite | dataRead | postWrite
  deriving DecidableEq, Repr

/-- `block_request`, by what it arms. -/
def blockRequest (cfg : Config) (r : Request) : Wait :=
  if r.bufferEnd ≠ 0 then .socketWrite
  else
    match r.status with
    | .ioShuffle =>
        if cfg.haveSendfile = false ∧ r.bufferEnd - r.bufferStart = 0 then .dataRead
        else .socketWrite
    | .write | .pipeWrite | .done => .socketWrite
    | .pipeRead => .dataRead
    | .bodyWrite => .postWrite
    | _ => .socketRead

/-- The list that a request is on: `request_ready`, `request_block` with what is armed for it,
or `request_free`. -/
inductive Place
  | ready
  | block (wait : Wait)
  | free
  deriving DecidableEq, Repr

/-- The list that a request is on behind the flush of `free_request`: a recycled request is
blocked, and armed for reading from its socket. -/
def releasePlace (r : Request) : Place :=
  if r.KeepsConnection then .block .socketRead else .free

/-- The list that `free_request` leaves a request on. -/
def freeRequestPlace (c : Conn) : Place :=
  if c.req.bufferEnd ≠ 0 ∧ c.req.status.code < ReqStatus.timedOut.code then
    match reqFlush (c.setStatus .done) with
    | (i, c) =>
        if i = -2 then releasePlace (c.setStatus .dead).req
        else if 0 < i then .ready
        else releasePlace c.req
  else releasePlace c.req

end Yabwf
