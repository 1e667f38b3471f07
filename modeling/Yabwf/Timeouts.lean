import Yabwf.Shutdown

/-!
The requests that `update_blocked` gives up: the ones that have been idle for too long, and those
whose socket is in error.

* `Condemned`: such a request is on `request_ready`, and `process_requests` has still to get to it.
* `Condemned.step`: so it stays from step to step, until the visit that closes its connection.
* `closed_of_expired`: its connection is closed before the loop is at its top again, whatever
  happens in between.
-/

namespace Yabwf

open Linked

/-! ### The visit -/

/-- The request has been given up. -/
def Request.Expired (r : Request) : Prop := r.status = .timedOut ∨ r.status = .dead

/-- The connection has been closed between the two states. -/
def ClosedBetween (c d : Conn) : Prop :=
  ∃ es unsent status, d.trace = c.trace ++ es ∧ Event.freed false unsent status ∈ es

/-- What is left of a request that has been given up when its handler returns. -/
lemma processRequest_of_expired {c : Conn} (h : c.req.Expired) (cfg : Config) (env : Env) :
    (processRequest cfg env c).1 = 0 ∧ (processRequest cfg env c).2.req.bufferEnd = 0 ∧
      (processRequest cfg env c).2.req.Expired ∧
      (processRequest cfg env c).2.trace = c.trace ++ [.dropped] := by
  have hflush : flushFirst c = (1, c) := by
    rw [flushFirst, if_neg]
    rintro ⟨-, hlt⟩
    rcases h with h | h <;> exact absurd hlt (by rw [h]; decide)
  have hhandle : handleStatus cfg env c
      = (0, ((c.upd fun r => { r with bufferEnd := 0 }).emit .dropped).squashKa) := by
    rcases h with h | h <;> rw [handleStatus, h]
  rw [processRequest_of_flush hflush, hhandle]
  dsimp only
  split_ifs <;> exact ⟨rfl, rfl, h, rfl⟩

/-- Its connection is closed. -/
lemma freeRequest_of_expired {c : Conn} (hend : c.req.bufferEnd = 0) (h : c.req.Expired)
    (cfg : Config) : freeRequestPlace c = .free ∧ ClosedBetween c (freeRequest cfg c) := by
  have hflush : ¬(c.req.bufferEnd ≠ 0 ∧ c.req.status.code < ReqStatus.timedOut.code) :=
    fun hboth => hboth.1 hend
  have hkeeps : ¬c.req.KeepsConnection := by
    rintro ⟨hlt, -⟩
    rcases h with h | h <;> exact absurd hlt (by rw [h]; decide)
  constructor
  · rw [freeRequestPlace, if_neg hflush, releasePlace, if_neg hkeeps]
  · rw [freeRequest, if_neg hflush]
    rcases releaseRequest_cases cfg c with ⟨n, hkeeps', -⟩ | ⟨n, -, heq⟩
    · exact absurd hkeeps' hkeeps
    · rw [heq]
      exact ⟨c.req.closing ++ [.freed false c.req.pending c.req.status], c.req.pending,
        c.req.status, List.append_assoc .., List.mem_append_right _ (List.mem_singleton.mpr rfl)⟩

namespace Loop

open Server

variable {s : Loop} {a x : Addr} {c : Conn} {r b f : List Addr}

/-! ### The steps -/

/-- What `settle` does to the tables changes at most the request at hand, and nothing that has
happened to it. -/
lemma server_settle (retval : ℤ) (a : Addr) (s : Loop) :
    ∃ c, (s.settle retval a).server = (s.server.settle s.settings.cfg retval a).setConn a c ∧
      c.trace = ((s.server.settle s.settings.cfg retval a).conns a).trace := by
  have hboa : ∀ (w : ℤ × ℕ) (t : Loop), ∃ c, (t.boaFdSet a w).server = t.server.setConn a c ∧
      c.trace = (t.server.conns a).trace := fun w t => ⟨_, server_store .., rfl⟩
  have hself : ∀ t : Server, ∃ c, t = t.setConn a c ∧ c.trace = (t.conns a).trace := fun t =>
    ⟨t.conns a, by rw [Server.setConn, Function.update_eq_self], rfl⟩
  unfold Loop.settle Server.settle
  split_ifs
  · exact hboa _ { s with server := s.server.blockRequest a }
  · unfold Loop.freeRequest
    cases freeRequestPlace (s.server.conns a) with
    | ready => exact hself _
    | block wait => exact hboa _ { s with server := s.server.freeRequest s.settings.cfg a }
    | free => exact hself _
  · exact hself _
  · exact hself _

/-- A request that has been given up is still to be visited in this iteration. -/
inductive Ahead (s : Loop) (a : Addr) : Prop
  | update (current : Option Addr) (hphase : s.phase = .update current)
      (hready : s.server.OnList s.server.ready a)
  | requests (hphase : s.phase = .requests) (r todo : List Addr)
      (hready : Represents s.server.mem s.server.ready r) (hround : s.server.Round r todo)
      (ha : a ∈ todo)

/-- The state of a request that has been given up, as `c`. -/
structure Condemned (s : Loop) (a : Addr) (c : Conn) : Prop where
  sound : ∃ r b f, s.Sound False r b f
  conn : s.server.conns a = c
  ahead : s.Ahead a

/-- Its connection has been closed. -/
def Gone (s : Loop) (a : Addr) (c : Conn) : Prop :=
  ¬s.server.Open a ∧ ClosedBetween c (s.server.conns a)

lemma Ahead.not_top (h : s.Ahead a) : s.phase ≠ .arm ∧ s.phase ≠ .signals := by
  cases h with
  | update current hphase => simp [hphase]
  | requests hphase => simp [hphase]

/-- The next blocked request is looked at. -/
lemma Condemned.updateBlocked (h : s.Condemned a c) (hphase : s.phase = .update (some x))
    (timeSince : ℤ) : (s.updateBlocked timeSince x).server.conns a = c ∧
      (s.updateBlocked timeSince x).server.OnList (s.updateBlocked timeSince x).server.ready a := by
  obtain ⟨r, b, f, hsound⟩ := h.sound
  obtain ⟨done, todo, hmoving⟩ := hsound.moving hphase
  have hx : x ∈ b := by
    rw [hmoving.split]
    exact List.mem_append_right done (List.mem_of_mem_head? hmoving.current_eq.symm)
  have har : a ∈ r := by
    cases h.ahead with
    | update current hphase' hready =>
        obtain ⟨l, hl, ha⟩ := hready
        exact hsound.lists.shape.ready.eq hl ▸ ha
    | requests hphase' => exact absurd (hphase.symm.trans hphase') (by simp)
  have hne : a ≠ x := fun hax => hsound.lists.shape.ready_block har (hax ▸ hx)
  have hconn : ∀ d, (s.server.setConn x d).conns a = c := fun d =>
    (Function.update_of_ne hne ..).trans h.conn
  unfold Loop.updateBlocked
  cases verdict s.settings.cfg timeSince (s.pfds (s.pollfdId x)).revents
    (s.server.conns x).req with
  | stay =>
      dsimp only
      rw [server_stillBlocked]
      exact ⟨hconn _, r, hsound.lists.shape.ready, har⟩
  | ready status =>
      have hready : ∀ t : Server, t.Lists (fdSetsize - 20) r b f →
          (t.readyRequest x).OnList (t.readyRequest x).ready a := fun t ht =>
        ⟨x :: r, (ht.readyRequest hx).shape.ready, List.mem_cons_of_mem x har⟩
      cases status with
      | none => exact ⟨h.conn, hready _ hsound.lists⟩
      | some status => exact ⟨hconn _, hready _ (hsound.lists.setConn x _)⟩

/-- The call of `process_requests` has the request before it. -/
lemma Condemned.startRequests (h : s.Condemned a c) (hphase : s.phase = .update none)
    {acc : AcceptEnv} (hacc : AcceptEnv.Fresh s.server acc) :
    (s.startRequests acc).server.conns a = c ∧ (s.startRequests acc).Ahead a := by
  obtain ⟨r, b, f, hsound⟩ := h.sound
  have har : a ∈ r := by
    cases h.ahead with
    | update current hphase' hready =>
        obtain ⟨l, hl, ha⟩ := hready
        exact hsound.lists.shape.ready.eq hl ▸ ha
    | requests hphase' => exact absurd (hphase.symm.trans hphase') (by simp)
  obtain ⟨new, f', hlists, hround, hconns⟩ :=
    hsound.lists.startRequests s.settings.cfg s.settings.limit_le hacc
  exact ⟨(hconns a (List.mem_append_left b har)).trans h.conn,
    .requests rfl (new ++ r) (new ++ r) hlists.shape.ready hround (List.mem_append_right new har)⟩

/-- The switch on the return value, behind the handlers. -/
lemma settled_of_passedOn {server : Server} {res : ℤ × Conn} {new todo : List Addr} {f' : List Addr}
    (hlists : server.Lists (fdSetsize - 20) (new ++ r) b f')
    (hpassed : PassedOn s.server server x res.2 r b new todo) (hphase : s.phase = .requests)
    (har : a ∈ r) (ha : a ∈ x :: todo) (hconn : s.server.conns a = c)
    (hres : a = x → res.1 = 0 ∧ res.2.req.bufferEnd = 0 ∧ res.2.req.Expired ∧
      res.2.trace = c.trace ++ [.dropped]) :
    ((settle res.1 x { s with server := server }).server.conns a = c ∧
      (settle res.1 x { s with server := server }).Ahead a) ∨
      (settle res.1 x { s with server := server }).Gone a c := by
  obtain ⟨d, hserver, htrace⟩ := server_settle res.1 x { s with server := server }
  dsimp only at hserver htrace
  by_cases hax : a = x
  · right
    obtain ⟨hzero, hend, hexpired, htrace'⟩ := hres hax
    subst hax
    have hfree : server.settle s.settings.cfg res.1 a = server.freeRequest s.settings.cfg a := by
      rw [hzero]
      rfl
    have hself : server.conns a = res.2 := hpassed.conn
    obtain ⟨hplace, es, unsent, status, hes, hmem⟩ :=
      freeRequest_of_expired (hself ▸ hend) (hself ▸ hexpired) s.settings.cfg
    obtain ⟨f'', hleft⟩ := hlists.freeRequest_ready s.settings.cfg hpassed.mem hpassed.current_ne
    rw [hplace] at hleft
    rw [hfree] at hserver htrace
    rw [Gone, hserver]
    refine ⟨fun hopen => ?_, [.dropped] ++ es, unsent, status, ?_, List.mem_append_right _ hmem⟩
    · have hin := ((hleft.setConn a d).open_iff a).mp hopen
      rcases List.mem_append.mp hin with hin | hin
      · exact hpassed.nodup.not_mem_erase hin
      · exact hlists.shape.ready_block hpassed.mem hin
    · rw [conns_setConn_self, htrace, conns_freeRequest_self, hes, hself, htrace',
        List.append_assoc]
  · left
    obtain ⟨r', b', f'', hsettled, hr', hcur, hconns⟩ :=
      hlists.settle_ready s.settings.cfg hpassed.mem hpassed.current_ne res.1
    have htodo : a ∈ todo := (List.mem_cons.mp ha).resolve_left hax
    refine ⟨?_, .requests ((alongside_settle _ _ _).2.trans hphase) r' todo ?_
      ⟨hpassed.suffix_settled hr', ?_⟩ htodo⟩
    · rw [hserver]
      have hother : ((server.settle s.settings.cfg res.1 x).setConn x d).conns a
          = (server.settle s.settings.cfg res.1 x).conns a := Function.update_of_ne hax ..
      rw [hother, hconns a hax, hpassed.conns a (List.mem_append_left b har) hax, hconn]
    · rw [hserver]
      exact hsettled.shape.ready
    · rw [hserver]
      exact hcur.trans hpassed.current

/-- A turn of `process_requests`: the request waits for another turn, or its connection is
closed. -/
lemma Condemned.turn (h : s.Condemned a c) (hexpired : c.req.Expired)
    (hphase : s.phase = .requests) (env : Env) {acc : AcceptEnv}
    (hacc : AcceptEnv.Fresh s.server acc) :
    ((s.turn env acc).server.conns a = c ∧ (s.turn env acc).Ahead a) ∨
      (s.turn env acc).Gone a c := by
  obtain ⟨r, b, f, hsound⟩ := h.sound
  obtain ⟨todo, hround, ha⟩ : ∃ todo, s.server.Round r todo ∧ a ∈ todo := by
    cases h.ahead with
    | update current hphase' => exact absurd (hphase.symm.trans hphase') (by simp)
    | requests hphase' l todo hready hround ha =>
        exact ⟨todo, hsound.lists.shape.ready.eq hready ▸ hround, ha⟩
  cases todo with
  | nil => exact absurd ha List.not_mem_nil
  | cons x todo =>
      have hcurrent : s.server.current = some x := hround.current_eq
      have har : a ∈ r := hround.suffix.subset ha
      -- what the handlers leave of the request itself
      have hres : a = x → ∀ res, processRequest s.settings.cfg
          { env with sigterm := s.sigtermFlag ≠ 0 }
          { s.server.conns x with tape := env.sock } = res →
          res.1 = 0 ∧ res.2.req.bufferEnd = 0 ∧ res.2.req.Expired ∧
            res.2.trace = c.trace ++ [.dropped] := by
        rintro rfl res rfl
        have hexpired' : ({ s.server.conns a with tape := env.sock } : Conn).req.Expired := by
          rw [h.conn]
          exact hexpired
        have hleft := processRequest_of_expired hexpired' s.settings.cfg
          { env with sigterm := s.sigtermFlag ≠ 0 }
        rwa [h.conn] at hleft ⊢
      unfold Loop.turn
      rw [hcurrent]
      dsimp only
      generalize hgen : processRequest s.settings.cfg { env with sigterm := s.sigtermFlag ≠ 0 }
        { s.server.conns x with tape := env.sock } = res
      have hres := fun hax => hres hax res hgen
      clear hgen
      obtain ⟨new, f', hlists, hpassed⟩ :=
        hround.passOn hsound.lists s.settings.cfg s.settings.limit_le hacc res.2
      suffices hsettled : ((settle res.1 x { s with
            server := s.server.passOn s.settings.cfg s.settings.limit acc x res.2 }).server.conns a
              = c ∧
          (settle res.1 x { s with
            server := s.server.passOn s.settings.cfg s.settings.limit acc x res.2 }).Ahead a) ∨
          (settle res.1 x { s with
            server := s.server.passOn s.settings.cfg s.settings.limit acc x res.2 }).Gone a c from
        hsettled
      generalize s.server.passOn s.settings.cfg s.settings.limit acc x res.2 = server
        at hlists hpassed ⊢
      exact settled_of_passedOn hlists hpassed hphase har ha h.conn hres

/-- **One step of the loop**: a request that has been given up is still to be visited, or its
connection has just been closed. -/
lemma Condemned.step (h : s.Condemned a c) (hexpired : c.req.Expired) {op : Op}
    (hlegal : s.Legal op) : (s.step op).Condemned a c ∨ (s.step op).Gone a c := by
  obtain ⟨r, b, f, hsound⟩ := h.sound
  have hroom : s.RoomForServer op := by
    cases op with
    | sigterm => trivial
    | go ans => exact fun harm => absurd harm h.ahead.not_top.1
  have hsound' := hsound.step hlegal hroom False.elim
  suffices hstep : ((s.step op).server.conns a = c ∧ (s.step op).Ahead a) ∨
      (s.step op).Gone a c from
    hstep.imp_left fun hboth => ⟨hsound', hboth.1, hboth.2⟩
  clear hsound' hroom
  unfold Loop.step
  cases op with
  | sigterm =>
      dsimp only
      by_cases hzero : s.sigtermFlag = 0
      · rw [if_pos hzero]
        refine .inl ⟨h.conn, ?_⟩
        cases h.ahead with
        | update current hphase hready => exact .update current hphase hready
        | requests hphase l todo hready hround ha => exact .requests hphase l todo hready hround ha
      · rw [if_neg hzero]
        exact .inl ⟨h.conn, h.ahead⟩
  | go ans =>
      dsimp only
      rw [hsound.inside, if_neg Bool.false_ne_true]
      cases h.ahead with
      | update current hphase hready =>
          rw [hphase]
          cases current with
          | none => exact .inl (h.startRequests hphase hlegal)
          | some x =>
              obtain ⟨hconn, hready'⟩ := h.updateBlocked hphase ans.timeSince
              exact .inl ⟨hconn, .update _ rfl hready'⟩
      | requests hphase l todo hready hround ha =>
          rw [hphase]
          exact h.turn hexpired hphase ans.env hlegal

/-! ### Runs -/

lemma Condemned.runs (h : s.Condemned a c) (hexpired : c.req.Expired) (ops : List Op)
    (hlegal : Run.Allowed Loop.step Legal s ops) :
    (Run.runs Loop.step s ops).Condemned a c ∨
      ∃ ops₁, ops₁ <+: ops ∧ (Run.runs Loop.step s ops₁).Gone a c := by
  induction ops generalizing s with
  | nil => exact .inl h
  | cons op ops ih =>
      rcases h.step hexpired hlegal.1 with hstep | hgone
      · rcases ih hstep hlegal.2 with hend | ⟨ops₁, hprefix, hgone⟩
        · exact .inl hend
        · exact .inr ⟨op :: ops₁, List.cons_prefix_cons.mpr ⟨rfl, hprefix⟩, hgone⟩
      · exact .inr ⟨[op], List.cons_prefix_cons.mpr ⟨rfl, List.nil_prefix⟩, hgone⟩

/-- What `update_blocked` gives a request up for: its descriptor is in error, nothing has happened
for too long, or no further request has come in. -/
def GivesUp (cfg : Config) (timeSince : ℤ) (revents : ℕ) (r : Request) : Prop :=
  revents &&& (pollNval ||| pollErr) ≠ 0 ∨ requestTimeout < timeSince ∨
    r.kacount < cfg.kaMax ∧ (cfg.kaTimeout : ℤ) ≤ timeSince ∧ ¬r.logline

instance (cfg : Config) (timeSince : ℤ) (revents : ℕ) (r : Request) :
    Decidable (GivesUp cfg timeSince revents r) := inferInstanceAs (Decidable (_ ∨ _ ∨ _))

lemma verdict_of_givesUp {cfg : Config} {timeSince : ℤ} {revents : ℕ} {r : Request}
    (h : GivesUp cfg timeSince revents r) : ∃ status, (status = .timedOut ∨ status = .dead) ∧
      verdict cfg timeSince revents r = .ready (some status) := by
  unfold verdict
  by_cases herror : revents &&& (pollNval ||| pollErr) ≠ 0
  · exact ⟨.dead, .inr rfl, if_pos herror⟩
  rw [if_neg herror]
  by_cases hlate : timeSince > requestTimeout
  · exact ⟨.timedOut, .inl rfl, if_pos hlate⟩
  rw [if_neg hlate, if_pos ((h.resolve_left herror).resolve_left hlate)]
  exact ⟨.timedOut, .inl rfl, rfl⟩

/-- The request is given up. -/
lemma Sound.condemned (h : s.Sound False r b f) (hphase : s.phase = .update (some a))
    {ans : LoopAnswers} (hlegal : s.Legal (.go ans))
    (hgives : GivesUp s.settings.cfg ans.timeSince (s.pfds (s.pollfdId a)).revents
      (s.server.conns a).req) :
    ∃ status, (status = .timedOut ∨ status = .dead) ∧
      (s.step (.go ans)).Condemned a ((s.server.conns a).setStatus status) := by
  obtain ⟨status, hstatus, hverdict⟩ := verdict_of_givesUp hgives
  have hroom : s.RoomForServer (.go ans) := fun harm =>
    absurd (harm.symm.trans hphase) (by simp)
  have hb : a ∈ b := by
    obtain ⟨done, todo, hmoving⟩ := h.moving hphase
    rw [hmoving.split]
    exact List.mem_append_right done (List.mem_of_mem_head? hmoving.current_eq.symm)
  have hlists := (h.lists.setConn a ((s.server.conns a).setStatus status)).readyRequest hb
  suffices hstep : (s.step (.go ans)).server.conns a = (s.server.conns a).setStatus status ∧
      (s.step (.go ans)).Ahead a from
    ⟨status, hstatus, h.step hlegal hroom False.elim, hstep.1, hstep.2⟩
  unfold Loop.step
  dsimp only
  rw [h.inside, if_neg Bool.false_ne_true, hphase]
  dsimp only
  rw [Loop.updateBlocked, hverdict]
  exact ⟨conns_setConn_self s.server a _,
    .update _ rfl ⟨a :: r, hlists.shape.ready, List.mem_cons_self⟩⟩

/-- **Idle connections are closed.** When `update_blocked` comes to a request that has been idle for
too long, or whose descriptor is in error, its connection is closed before the loop is at its top
again, whatever happens in between: other requests, new connections, or `SIGTERM`. -/
theorem closed_of_expired (set : LoopSettings) (serverS : ℤ) (tables : Bool → ℕ → Pollfd)
    (ops ops' : List Op) (ans : LoopAnswers)
    (hops : Run.Allowed step Legal (initial set serverS tables) (ops ++ .go ans :: ops'))
    (hinside : (Run.runs step (initial set serverS tables) ops).overrun = false)
    (hphase : (Run.runs step (initial set serverS tables) ops).phase = .update (some a))
    (hgives : GivesUp (Run.runs step (initial set serverS tables) ops).settings.cfg ans.timeSince
      ((Run.runs step (initial set serverS tables) ops).pfds
        ((Run.runs step (initial set serverS tables) ops).pollfdId a)).revents
      ((Run.runs step (initial set serverS tables) ops).server.conns a).req)
    (hend : (Run.runs step (initial set serverS tables) (ops ++ .go ans :: ops')).phase
      = .signals) :
    ∃ ops₁, ops₁ <+: ops' ∧
      (Run.runs step (initial set serverS tables) (ops ++ .go ans :: ops₁)).Gone a
        ((Run.runs step (initial set serverS tables) ops).server.conns a) := by
  obtain ⟨hfront, hlegal, hback⟩ := Run.allowed_append.mp hops
  have hstep : ∀ (s : Loop) op, Reached False s → s.Legal op → Reached False (s.step op) :=
    fun _ _ hs hlegal => hs.step hlegal False.elim
  have hreached := Run.runs_invariant hstep ops _ (reached_initial False set serverS tables) hfront
  obtain ⟨r, b, f, hsound⟩ := hreached hinside
  rw [Run.runs_append, Run.runs_cons] at hend
  simp only [Run.runs_append, Run.runs_cons]
  generalize Run.runs step (initial set serverS tables) ops = s at *
  obtain ⟨status, hstatus, hcondemned⟩ := hsound.condemned hphase hlegal hgives
  have hruns := hcondemned.runs hstatus ops' hback
  rcases hruns with hcondemned' | ⟨ops₁, hprefix, hgone⟩
  · exact absurd hend hcondemned'.ahead.not_top.2
  · exact ⟨ops₁, hprefix, hgone⟩

/-- The loop comes to the first connection while nothing happens. -/
def firstUpdate : List Op :=
  firstConnection ++ (List.replicate 4 (.go {}) ++ [.go { poll := .ok fun _ => 0 }, .go {}])

theorem closed_of_expired_firstUpdate :
    ∃ ops₁, ops₁ <+: List.replicate 3 (.go {}) ∧
      (Run.runs step (initial { maxConnections := 2 } 3 fun _ _ => {})
          (firstUpdate ++ .go { timeSince := 61 } :: ops₁)).Gone 1
        ((Run.runs step (initial { maxConnections := 2 } 3 fun _ _ => {})
          firstUpdate).server.conns 1) := by
  have hops : Run.Allowed step Legal (initial { maxConnections := 2 } 3 fun _ _ => {})
      (firstUpdate ++ .go { timeSince := 61 } :: List.replicate 3 (.go {})) := by
    refine Run.allowed_append.mpr ⟨Run.allowed_append.mpr ⟨legal_firstConnection,
      Run.allowed_append.mpr ⟨legal_replicate 4 _, ?_, ?_, trivial⟩⟩, ?_, legal_replicate 3 _⟩
    all_goals rintro a ⟨⟩
  have hgives : ∀ cfg revents r, GivesUp cfg 61 revents r := fun _ _ _ => .inr (.inl (by decide))
  refine closed_of_expired _ _ _ firstUpdate (List.replicate 3 (.go {})) { timeSince := 61 } hops
    ?_ ?_ (hgives _ _ _) ?_
  · decide +kernel
  · decide +kernel
  · decide +kernel

end Loop

end Yabwf
