import Yabwf.Lib.Slots
import Yabwf.Server

/-!
`poll.c`: the loop of the server, with the tables that `poll` is called with.

* `Loop`: the two tables, the local variables of `loop` and the requests, and where the loop
  stands.
* `Loop.step`: what `loop` does until it next looks at `sigterm_flag` or calls something that
  answers, or the arrival of `SIGTERM`.

`time_last` is not part of a request here: how long ago it was is an answer. A store behind the
end of a table is undefined behaviour, and the loop stands still then.
-/

namespace Yabwf

/-- `FD_SETSIZE`. -/
def fdSetsize : ℕ := 1024

/-- `MAX_FD`. -/
def maxFd : ℕ := fdSetsize

/-- `REQUEST_TIMEOUT`. -/
def requestTimeout : ℤ := 60

/-- `POLLERR`. -/
def pollErr : ℕ := 8

/-- `POLLNVAL`. -/
def pollNval : ℕ := 32

/-- `BOA_READ`, that is `POLLIN|POLLPRI|POLLHUP`. -/
def boaRead : ℕ := 1 ||| 2 ||| 16

/-- `BOA_WRITE`, that is `POLLOUT|POLLHUP`. -/
def boaWrite : ℕ := 4 ||| 16

/-- `struct pollfd`. -/
structure Pollfd where
  fd : ℤ := 0
  events : ℕ := 0
  revents : ℕ := 0

/-- The descriptor and the events that are waited for. -/
def Pollfd.watched (p : Pollfd) : ℤ × ℕ := (p.fd, p.events)

/-- The descriptor and the events that `block_request` arms. -/
def Wait.watched (r : Request) : Wait → ℤ × ℕ
  | .socketRead => (r.fd, boaRead)
  | .socketWrite => (r.fd, boaWrite)
  | .dataRead => (r.dataFd, boaRead)
  | .postWrite => (r.postDataFd, boaWrite)

/-- Where the loop stands. -/
inductive Phase
  /-- At the top, where the flags of the other signals are looked at. -/
  | signals
  /-- Where `sigterm_flag` is looked at, and the listening socket is added to the table. -/
  | arm
  /-- At the call of `poll`. -/
  | poll
  /-- Behind `poll`. -/
  | polled
  /-- In `update_blocked`, at a request. -/
  | update (current : Option Addr)
  /-- In `process_requests`. -/
  | requests
  /-- Behind a call of `exit`. -/
  | exited
  deriving DecidableEq

/-- What `poll` answers: `EINTR`, another error, or the events of each entry. -/
inductive PollResult
  | interrupted
  | failed
  | ok (revents : ℕ → ℕ)

/-- What `read_config_files` reads: the settings, `MaxConnections`, and the limit that the system
sets on open files. -/
structure LoopSettings where
  cfg : Config := {}
  maxConnections : ℕ := 0
  rlimit : ℕ := 0

/-- `max_connections` behind `read_config_files`. -/
def LoopSettings.limit (set : LoopSettings) : ℕ :=
  let maxConnections :=
    if set.maxConnections < 1 then set.rlimit % 2 ^ 32 else set.maxConnections
  if maxConnections > fdSetsize - 20 then fdSetsize - 20 else maxConnections

/-- `max_connections` is capped. -/
lemma LoopSettings.limit_le (set : LoopSettings) : set.limit ≤ fdSetsize - 20 := by
  unfold LoopSettings.limit
  dsimp only
  split_ifs <;> omega

/-- What the loop is answered on its next step. -/
structure LoopAnswers where
  /-- The files that `sighup_run` reads, where `SIGHUP` has been caught. -/
  hangup : Option LoopSettings := none
  poll : PollResult := .interrupted
  /-- How long ago the request at hand was active. -/
  timeSince : ℤ := 0
  env : Env := {}
  acc : AcceptEnv := {}

/-- The variables of the loop. -/
structure Loop where
  server : Server := {}
  settings : LoopSettings := {}
  /-- The descriptor of the listening socket, `-1` once it is closed. -/
  serverS : ℤ := 0
  pfd1 : Bool → ℕ → Pollfd := fun _ _ => {}
  /-- The table that `pfds` points to; `other` is the other one. -/
  which : Bool := false
  pfdLen : ℕ := 0
  serverPfd : ℕ := 0
  watchServer : Bool := true
  sigtermFlag : ℕ := 0
  phase : Phase := .signals
  /-- An index that is not below `MAX_FD` has been stored to. -/
  overrun : Bool := false
  /-- What `BOA_FD_SET` was last called with for a request. -/
  armed : Addr → ℤ × ℕ := fun _ => (0, 0)
  /-- How often in a row `poll` has been interrupted with the listening socket in its table. -/
  interrupts : ℕ := 0

namespace Loop

/-- `pfds`. -/
def pfds (s : Loop) : ℕ → Pollfd := s.pfd1 s.which

/-- `req->pollfd_id`. -/
def pollfdId (s : Loop) (a : Addr) : ℕ := (s.server.conns a).req.pollfdId

/-- Storing a descriptor and events into an entry of a table. -/
def store (table : Bool) (i : ℕ) (watched : ℤ × ℕ) (s : Loop) : Loop :=
  if i < maxFd then
    { s with pfd1 := Function.update s.pfd1 table (Function.update (s.pfd1 table) i
      { s.pfd1 table i with fd := watched.1, events := watched.2 }) }
  else { s with overrun := true }

/-- Storing `req->pollfd_id`. -/
def setPollfdId (a : Addr) (i : ℕ) (s : Loop) : Loop :=
  { s with
    server := s.server.setConn a ((s.server.conns a).upd fun r => { r with pollfdId := i }) }

/-- `BOA_FD_SET`. -/
def boaFdSet (a : Addr) (watched : ℤ × ℕ) (s : Loop) : Loop :=
  let s := (s.setPollfdId a s.pfdLen).store s.which s.pfdLen watched
  { s with pfdLen := s.pfdLen + 1, armed := Function.update s.armed a watched }

/-! ### The top of the loop -/

/-- `sighup_run`. -/
def sighupRun (set : LoopSettings) (s : Loop) : Loop :=
  { s with server := s.server.freeRequests, settings := set }

/-- The loop that removes `server_pfd`, with `j`. -/
def removeServerPfd (s : Loop) : ℕ → Loop × ℕ
  | 0 => (s, 0)
  | i + 1 =>
      match removeServerPfd s i with
      | (s', j) =>
          if i = s.serverPfd then (s', j)
          else (s'.store (!s.which) j (s.pfds i).watched, j + 1)

/-- What follows the first look at a `sigterm_flag` of `1`. -/
def sigtermStage1 (s : Loop) : Loop :=
  match removeServerPfd { s with sigtermFlag := 2, serverS := -1 } s.pfdLen with
  | (s, j) => { s with pfdLen := j, which := !s.which, watchServer := false }

/-- The part between the signals and `poll`. -/
def armServer (s : Loop) : Loop :=
  if s.sigtermFlag ≠ 0 then
    let s := if s.sigtermFlag = 1 then s.sigtermStage1 else s
    if s.sigtermFlag = 2 ∧ s.server.ready = none ∧ s.server.block = none then
      { s with phase := .exited }
    else { s with phase := .poll, server := { s.server with pending := false } }
  else
    let s :=
      if s.server.total < s.settings.limit then
        { s.store s.which s.pfdLen (s.serverS, boaRead) with
          serverPfd := s.pfdLen, pfdLen := s.pfdLen + 1, watchServer := true }
      else { s with watchServer := false }
    { s with phase := .poll, server := { s.server with pending := false } }

/-! ### The call of `poll` -/

/-- Emptying the table, and the start of `update_blocked`. -/
def startUpdate (s : Loop) : Loop :=
  { s with pfdLen := 0, interrupts := 0, phase := .update s.server.block }

/-- `poll`, which is not called for an empty table. -/
def callPoll (result : PollResult) (s : Loop) : Loop :=
  if s.pfdLen = 0 then s.startUpdate
  else
    match result with
    | .interrupted =>
        { s with phase := .signals,
                 interrupts := if s.watchServer then s.interrupts + 1 else s.interrupts }
    | .failed => { s with phase := .polled }
    | .ok revents =>
        { s with
          pfd1 := Function.update s.pfd1 s.which fun i =>
            if i < s.pfdLen then { s.pfds i with revents := revents i } else s.pfds i
          phase := .polled }

/-- What follows `poll`: is there a new connection? -/
def afterPoll (s : Loop) : Loop :=
  if s.sigtermFlag = 0 ∧ s.watchServer then
    let revents := (s.pfds s.serverPfd).revents
    if revents &&& (pollNval ||| pollErr) ≠ 0 then { s with phase := .exited }
    else if revents &&& boaRead ≠ 0 then
      { s with server := { s.server with pending := true } }.startUpdate
    else s.startUpdate
  else s.startUpdate

/-! ### `update_blocked` -/

/-- What becomes of a blocked request: nothing, it is made ready, or it is made ready with a
status. -/
inductive Verdict
  | stay
  | ready (status : Option ReqStatus)

/-- The tests of `update_blocked`. -/
def verdict (cfg : Config) (timeSince : ℤ) (revents : ℕ) (r : Request) : Verdict :=
  if revents &&& (pollNval ||| pollErr) ≠ 0 then .ready (some .dead)
  else if timeSince > requestTimeout then .ready (some .timedOut)
  else if r.kacount < cfg.kaMax ∧ timeSince ≥ cfg.kaTimeout ∧ ¬r.logline then
    .ready (some .timedOut)
  else if revents = 0 then .stay
  else .ready none

/-- A request that is still blocked gets the next entry of the other table. -/
def stillBlocked (a : Addr) (s : Loop) : Loop :=
  { (s.store (!s.which) s.pfdLen (s.pfds (s.pollfdId a)).watched).setPollfdId a s.pfdLen with
    pfdLen := s.pfdLen + 1 }

/-- A turn of `update_blocked`. -/
def updateBlocked (timeSince : ℤ) (a : Addr) (s : Loop) : Loop :=
  match verdict s.settings.cfg timeSince (s.pfds (s.pollfdId a)).revents
    (s.server.conns a).req with
  | .stay => s.stillBlocked a
  | .ready none => { s with server := s.server.readyRequest a }
  | .ready (some status) =>
      { s with server :=
          (s.server.setConn a ((s.server.conns a).setStatus status)).readyRequest a }

/-- The change of the tables, and the start of `process_requests`. -/
def startRequests (acc : AcceptEnv) (s : Loop) : Loop :=
  { s with
    which := !s.which
    server := s.server.startRequests s.settings.cfg s.settings.limit acc
    phase := .requests }

/-! ### `process_requests` -/

/-- `block_request`. -/
def blockRequest (a : Addr) (s : Loop) : Loop :=
  let r := (s.server.conns a).req
  { s with server := s.server.blockRequest a }.boaFdSet a
    ((Yabwf.blockRequest s.settings.cfg r).watched r)

/-- `free_request`. -/
def freeRequest (a : Addr) (s : Loop) : Loop :=
  let s' := { s with server := s.server.freeRequest s.settings.cfg a }
  match freeRequestPlace (s.server.conns a) with
  | .block wait => s'.boaFdSet a (wait.watched (s'.server.conns a).req)
  | _ => s'

/-- The switch on the return value in `process_requests`. -/
def settle (retval : ℤ) (a : Addr) (s : Loop) : Loop :=
  if retval = -1 then s.blockRequest a
  else if retval = 0 then s.freeRequest a
  else if retval = 1 then s
  else { s with server := s.server.setConn a (s.server.conns a).die }

/-- A turn of the loop of `process_requests`, or its end. -/
def turn (env : Env) (acc : AcceptEnv) (s : Loop) : Loop :=
  match s.server.current with
  | none => { s with phase := .signals }
  | some a =>
      let env := { env with sigterm := s.sigtermFlag ≠ 0 }
      let res := processRequest s.settings.cfg env { s.server.conns a with tape := env.sock }
      let server := s.server.setConn a res.2
      let server :=
        if server.pending then server.getRequest s.settings.cfg s.settings.limit acc else server
      settle res.1 a { s with server := { server with current := (server.mem a).next } }

/-! ### The steps -/

/-- What happens: `SIGTERM` arrives, or the loop goes on. -/
inductive Op
  | sigterm
  | go (ans : LoopAnswers)

/-- One step. -/
def step (s : Loop) : Op → Loop
  | .sigterm => if s.sigtermFlag = 0 then { s with sigtermFlag := 1 } else s
  | .go ans =>
      if s.overrun then s
      else
        match s.phase with
        | .signals =>
            { (match ans.hangup with
                | some set => s.sighupRun set
                | none => s) with phase := .arm }
        | .arm => s.armServer
        | .poll => s.callPoll ans.poll
        | .polled => s.afterPoll
        | .update (some a) =>
            { s.updateBlocked ans.timeSince a with phase := .update (s.server.mem a).next }
        | .update none => s.startRequests ans.acc
        | .requests => s.turn ans.env ans.acc
        | .exited => s

/-- The start of `loop`: nothing has been stored into the tables. -/
def initial (set : LoopSettings) (serverS : ℤ) (tables : Bool → ℕ → Pollfd) : Loop :=
  { settings := set, serverS := serverS, pfd1 := tables }

/-- `malloc` returns memory that is not in use. -/
def Legal (s : Loop) : Op → Prop
  | .sigterm => True
  | .go ans => Server.AcceptEnv.Fresh s.server ans.acc

end Loop

end Yabwf
