import Yabwf.Poll
import Yabwf.Rounds

/-!
`select.c`: the loop of the server in a build without `poll`, with the sets that `select` is called
with.

* `SelectLoop`: the two sets, `max_fd` and the requests, and where the loop stands.
* `SelectLoop.fdsetUpdate`: a turn of `fdset_update`.
* `SelectLoop.step`: what `loop` does until it next looks at `sigterm_flag` or calls something that
  answers, or the arrival of `SIGTERM`.

`time_last` is not part of a request here, as with `poll`. A descriptor that an `fd_set` has no bit
for is undefined behaviour, and the loop stands still then.
-/

namespace Yabwf

/-- `block_read_fdset` and `block_write_fdset`. -/
inductive FdSet
  | read | write
  deriving DecidableEq, Repr

/-- A bit of one of the sets. -/
abbrev FdBit := ℤ × FdSet

/-- The bit of what a request waits for. -/
def Wait.bit (r : Request) : Wait → FdBit
  | .socketRead => (r.fd, .read)
  | .socketWrite => (r.fd, .write)
  | .dataRead => (r.dataFd, .read)
  | .postWrite => (r.postDataFd, .write)

/-- Where the loop stands. -/
inductive SelectPhase
  /-- At the top, where the flags of the other signals are looked at. -/
  | signals
  /-- Where `sigterm_flag` is looked at, and the listening socket is added to the sets. -/
  | arm
  /-- At the call of `select`. -/
  | select
  /-- Behind `select`. -/
  | selected
  /-- In `fdset_update`, at a request. -/
  | update (current : Option Addr)
  /-- In `process_requests`. -/
  | requests
  /-- Behind a call of `exit`. -/
  | exited
  deriving DecidableEq

/-- What `select` answers: `EINTR`, `EBADF`, another error, or the bits that are ready. -/
inductive SelectResult
  | interrupted
  | badFd
  | failed
  | ok (ready : FdBit → Bool)

/-- What the loop is answered on its next step. -/
structure SelectAnswers where
  /-- The files that `sighup_run` reads, where `SIGHUP` has been caught. -/
  hangup : Option LoopSettings := none
  select : SelectResult := .interrupted
  /-- How long ago the request at hand was active. -/
  timeSince : ℤ := 0
  env : Env := {}
  acc : AcceptEnv := {}

/-- The variables of the loop. -/
structure SelectLoop where
  server : Server := {}
  settings : LoopSettings := {}
  /-- The descriptor of the listening socket, `-1` once it is closed. -/
  serverS : ℤ := 0
  sets : FdBit → Bool := fun _ => false
  maxFd : ℤ := -1
  sigtermFlag : ℕ := 0
  phase : SelectPhase := .signals
  /-- A bit that an `fd_set` does not have has been set or cleared. -/
  overrun : Bool := false

namespace SelectLoop

/-- An `fd_set` has a bit for the descriptor. -/
def InSet (w : FdBit) : Prop := 0 ≤ w.1 ∧ w.1 < fdSetsize

instance (w : FdBit) : Decidable (InSet w) := inferInstanceAs (Decidable (_ ∧ _))

/-- `BOA_FD_SET`. -/
def fdSet (w : FdBit) (s : SelectLoop) : SelectLoop :=
  { s with
    sets := Function.update s.sets w true
    maxFd := if w.1 > s.maxFd then w.1 else s.maxFd
    overrun := s.overrun || !decide (InSet w) }

/-- `BOA_FD_CLR`. -/
def fdClr (w : FdBit) (s : SelectLoop) : SelectLoop :=
  { s with
    sets := Function.update s.sets w false
    overrun := s.overrun || !decide (InSet w) }

/-! ### The top of the loop -/

/-- `sighup_run`. -/
def sighupRun (set : LoopSettings) (s : SelectLoop) : SelectLoop :=
  { s with server := s.server.freeRequests, settings := set }

/-- What follows the first look at a `sigterm_flag` of `1`. -/
def sigtermStage1 (s : SelectLoop) : SelectLoop :=
  { s.fdClr (s.serverS, .read) with sigtermFlag := 2, serverS := -1 }

/-- The part between the signals and `select`. -/
def armServer (s : SelectLoop) : SelectLoop :=
  if s.sigtermFlag ≠ 0 then
    let s := if s.sigtermFlag = 1 then s.sigtermStage1 else s
    if s.sigtermFlag = 2 ∧ s.server.ready = none ∧ s.server.block = none then
      { s with phase := .exited }
    else { s with phase := .select, server := { s.server with pending := false } }
  else
    let s :=
      if s.server.total > s.settings.limit then s.fdClr (s.serverS, .read)
      else s.fdSet (s.serverS, .read)
    { s with phase := .select, server := { s.server with pending := false } }

/-! ### The call of `select` -/

/-- Resetting `max_fd`, and the start of `fdset_update`. -/
def startUpdate (s : SelectLoop) : SelectLoop :=
  { s with maxFd := -1, phase := .update s.server.block }

/-- `select`, which leaves the bits of what is ready. -/
def callSelect (result : SelectResult) (s : SelectLoop) : SelectLoop :=
  if s.maxFd = 0 then s.startUpdate
  else
    match result with
    | .interrupted => { s with phase := .signals }
    | .badFd => { s with phase := .selected }
    | .failed => { s with phase := .exited }
    | .ok ready => { s with sets := fun w => s.sets w && ready w, phase := .selected }

/-- What follows `select`: is there a new connection? -/
def afterSelect (s : SelectLoop) : SelectLoop :=
  if s.sigtermFlag = 0 ∧ s.sets (s.serverS, .read) then
    { s with server := { s.server with pending := true } }.startUpdate
  else s.startUpdate

/-! ### `fdset_update` -/

/-- The request has timed out. -/
def TimedOut (cfg : Config) (timeSince : ℤ) (r : Request) : Prop :=
  r.kacount < cfg.kaMax ∧ timeSince ≥ cfg.kaTimeout ∧ ¬r.logline ∨ timeSince > requestTimeout

instance (cfg : Config) (timeSince : ℤ) (r : Request) : Decidable (TimedOut cfg timeSince r) :=
  inferInstanceAs (Decidable (_ ∨ _))

/-- What `fdset_update` does about a request: it makes it ready, or looks at a bit first. A bit
that is not set is set for the next call of `select`, or is left alone. -/
inductive FdTest
  | ready
  | test (wait : Wait) (rearm : Bool)
  deriving DecidableEq

/-- The switch of `fdset_update`. -/
def fdTest (cfg : Config) (r : Request) : FdTest :=
  if r.bufferEnd ≠ 0 ∧ r.status.code < ReqStatus.done.code then .test .socketWrite true
  else
    match r.status with
    | .ioShuffle =>
        if cfg.haveSendfile = false ∧ r.bufferEnd - r.bufferStart = 0 then .test .dataRead false
        else .test .socketWrite true
    | .write | .pipeWrite => .test .socketWrite true
    | .bodyWrite => .test .postWrite true
    | .pipeRead => .test .dataRead true
    | .done => .test .socketWrite true
    | .timedOut | .dead => .ready
    | _ => .test .socketRead true

/-- `ready_request`, whose switch is the one of `block_request`. -/
def readyRequest (a : Addr) (s : SelectLoop) : SelectLoop :=
  let r := (s.server.conns a).req
  { s with server := s.server.readyRequest a }.fdClr ((blockRequest s.settings.cfg r).bit r)

/-- A turn of `fdset_update` behind the tests for a time-out. -/
def testRequest (a : Addr) (s : SelectLoop) : SelectLoop :=
  let r := (s.server.conns a).req
  match fdTest s.settings.cfg r with
  | .ready => s.readyRequest a
  | .test wait rearm =>
      if s.sets (wait.bit r) then s.readyRequest a
      else if rearm then s.fdSet (wait.bit r)
      else s

/-- A turn of `fdset_update`. -/
def fdsetUpdate (timeSince : ℤ) (a : Addr) (s : SelectLoop) : SelectLoop :=
  if TimedOut s.settings.cfg timeSince (s.server.conns a).req then
    { s with server := s.server.setConn a ((s.server.conns a).setStatus .timedOut) }.testRequest a
  else s.testRequest a

/-- The start of `process_requests`, which is called if there is something to do. -/
def startRequests (acc : AcceptEnv) (s : SelectLoop) : SelectLoop :=
  if s.server.pending ∨ s.server.ready ≠ none then
    { s with
      server := s.server.startRequests s.settings.cfg s.settings.limit acc
      phase := .requests }
  else { s with phase := .signals }

/-! ### `process_requests` -/

/-- `block_request`. -/
def blockRequest (a : Addr) (s : SelectLoop) : SelectLoop :=
  let r := (s.server.conns a).req
  { s with server := s.server.blockRequest a }.fdSet
    ((Yabwf.blockRequest s.settings.cfg r).bit r)

/-- The bits that `free_request` clears where it closes `data_fd` and `post_data_fd`. -/
def clearFiles (r : Request) (s : SelectLoop) : SelectLoop :=
  let s := if r.dataFd ≠ 0 then s.fdClr (r.dataFd, .read) else s
  if r.postDataFd ≠ 0 then s.fdClr (r.postDataFd, .write) else s

/-- `free_request`. -/
def freeRequest (a : Addr) (s : SelectLoop) : SelectLoop :=
  let r := (s.server.conns a).req
  let s' := { s with server := s.server.freeRequest s.settings.cfg a }
  match freeRequestPlace (s.server.conns a) with
  | .ready => s'
  | .block wait =>
      ((s'.clearFiles r).fdSet (wait.bit (s'.server.conns a).req)).fdClr (r.fd, .write)
  | .free => ((s'.clearFiles r).fdClr (r.fd, .read)).fdClr (r.fd, .write)

/-- The switch on the return value in `process_requests`. -/
def settle (retval : ℤ) (a : Addr) (s : SelectLoop) : SelectLoop :=
  if retval = -1 then s.blockRequest a
  else if retval = 0 then s.freeRequest a
  else if retval = 1 then s
  else { s with server := s.server.setConn a (s.server.conns a).die }

/-- What the handlers answer on a visit to a request, and what they leave of it. -/
def handle (env : Env) (a : Addr) (s : SelectLoop) : ℤ × Conn :=
  processRequest s.settings.cfg { env with sigterm := s.sigtermFlag ≠ 0 }
    { s.server.conns a with tape := env.sock }

/-- A turn of the loop of `process_requests`, or its end. -/
def turn (env : Env) (acc : AcceptEnv) (s : SelectLoop) : SelectLoop :=
  match s.server.current with
  | none => { s with phase := .signals }
  | some a =>
      let res := s.handle env a
      let server := s.server.setConn a res.2
      let server :=
        if server.pending then server.getRequest s.settings.cfg s.settings.limit acc else server
      settle res.1 a { s with server := { server with current := (server.mem a).next } }

/-! ### The steps -/

/-- What happens: `SIGTERM` arrives, or the loop goes on. -/
inductive Op
  | sigterm
  | go (ans : SelectAnswers)

/-- One step. -/
def step (s : SelectLoop) : Op → SelectLoop
  | .sigterm => if s.sigtermFlag = 0 then { s with sigtermFlag := 1 } else s
  | .go ans =>
      if s.overrun then s
      else
        match s.phase with
        | .signals =>
            { (match ans.hangup with
                | some set => s.sighupRun set
                | none => s) with phase := .arm }
        | .arm => s.armServer
        | .select => s.callSelect ans.select
        | .selected => s.afterSelect
        | .update (some a) =>
            { s.fdsetUpdate ans.timeSince a with phase := .update (s.server.mem a).next }
        | .update none => s.startRequests ans.acc
        | .requests => s.turn ans.env ans.acc
        | .exited => s

/-- The start of `loop`. -/
def initial (set : LoopSettings) (serverS : ℤ) : SelectLoop :=
  { settings := set, serverS := serverS }

/-- `malloc` returns memory that is not in use, and a new configuration does not change the
build. -/
def Legal (s : SelectLoop) : Op → Prop
  | .sigterm => True
  | .go ans => Server.AcceptEnv.Fresh s.server ans.acc ∧
      ∀ set ∈ ans.hangup, set.cfg.haveSendfile = s.settings.cfg.haveSendfile

end SelectLoop

end Yabwf
