import Yabwf.Decoding
import Yabwf.PollTable
import Yabwf.Rounds

/-!
`SIGTERM`, from the moment in which the loop of `poll.c` has noticed it.

* `Closing`: no end of a request that is recorded keeps the connection.
* `Shrinks`: no request comes in, and those that end are closed.
* `Server.Lists.shrinks_turn`: so it is in every turn of `process_requests`, since `SQUASH_KA` is
  called for each request that is visited.
* `winds_down`: so it is in every run from there on, and the loop exits only once all requests have
  ended.
-/

namespace Yabwf

open Linked

/-! ### Requests -/

/-- The requests that end between the two states are not kept for another one. -/
def Closing (c d : Conn) : Prop :=
  ∃ es, d.trace = c.trace ++ es ∧ ∀ unsent status, Event.freed true unsent status ∉ es

namespace Closing

variable {c d e : Conn}

lemma of_eq (h : d.trace = c.trace) : Closing c d :=
  ⟨[], by rw [h, List.append_nil], fun _ _ => List.not_mem_nil⟩

lemma refl (c : Conn) : Closing c c := of_eq rfl

lemma trans (h : Closing c d) (h' : Closing d e) : Closing c e := by
  obtain ⟨es, htrace, hes⟩ := h
  obtain ⟨es', htrace', hes'⟩ := h'
  refine ⟨es ++ es', by rw [htrace', htrace, List.append_assoc], fun unsent status hmem => ?_⟩
  exact (List.mem_append.mp hmem).elim (hes unsent status) (hes' unsent status)

lemma of_quiet (h : Quiet c d) : Closing c d := by
  obtain ⟨es, htrace, hes⟩ := h.events
  refine ⟨es, htrace, fun unsent status hmem => ?_⟩
  exact absurd (hes _ hmem) (by simp [Event.isMark])

lemma emit {ev : Event} (h : ∀ unsent status, ev ≠ .freed true unsent status) (c : Conn) :
    Closing c (c.emit ev) := by
  refine ⟨[ev], rfl, fun unsent status hmem => ?_⟩
  exact h unsent status (List.mem_singleton.mp hmem).symm

end Closing

/-- The end of a request that is not kept. -/
lemma releaseRequest_closing (cfg : Config) {c : Conn} (h : ¬c.req.KeepsConnection) :
    Closing c (releaseRequest cfg c) := by
  rcases releaseRequest_cases cfg c with ⟨n, hkeeps, -⟩ | ⟨n, -, heq⟩
  · exact absurd hkeeps h
  · rw [heq]
    refine ⟨c.req.closing ++ [.freed false c.req.pending c.req.status], ?_, ?_⟩
    · exact List.append_assoc ..
    · intro unsent status hmem
      rw [Request.closing] at hmem
      split_ifs at hmem <;> simp at hmem

/-- Behind `SQUASH_KA`, `free_request` closes the connection or has something left to send. -/
lemma freeRequest_closing (cfg : Config) {c : Conn} (h : c.req.keepalive ≠ .active) :
    Closing c (freeRequest cfg c) ∧ ∀ wait, freeRequestPlace c ≠ .block wait := by
  have hnot : ∀ {d : Conn}, d.req.keepalive = c.req.keepalive → ¬d.req.KeepsConnection :=
    fun hd hkeeps => h (hd.symm.trans hkeeps.2.1)
  -- behind the flush
  have hrelease : ∀ {d : Conn}, Closing c d → ¬d.req.KeepsConnection →
      Closing c (releaseRequest cfg d) ∧ ∀ wait, releasePlace d.req ≠ .block wait := by
    intro d hd hkeeps
    refine ⟨hd.trans (releaseRequest_closing cfg hkeeps), fun wait => ?_⟩
    rw [releasePlace, if_neg hkeeps]
    simp
  rw [freeRequest, freeRequestPlace]
  by_cases hflush : c.req.bufferEnd ≠ 0 ∧ c.req.status.code < ReqStatus.timedOut.code
  swap
  · rw [if_neg hflush, if_neg hflush]
    exact hrelease (Closing.refl c) (hnot rfl)
  rw [if_pos hflush, if_pos hflush]
  have hfront : Closing c (reqFlush (c.setStatus .done)).2 :=
    Closing.trans (d := c.setStatus .done) (Closing.of_eq rfl)
      (Closing.of_quiet (Quiet.of_outputs (reqFlush_outputs _)))
  rcases reqFlush_cases (c.setStatus .done) with ⟨hret, -⟩ | ⟨t, -, -, heq⟩ |
    ⟨t, es, i, e, -, heq⟩
  · rcases hres : reqFlush (c.setStatus .done) with ⟨retval, d⟩
    rw [hres] at hret hfront
    dsimp only at hret hfront ⊢
    rw [if_pos hret, if_pos hret]
    exact hrelease (hfront.trans (Closing.of_eq rfl)) fun hkeeps =>
      absurd hkeeps.1 (by simp [Conn.setStatus, Conn.upd, ReqStatus.code])
  · rw [heq] at hfront ⊢
    exact hrelease hfront (hnot rfl)
  · have hne : ¬(e : ℤ) = -2 := by omega
    rw [heq] at hfront ⊢
    dsimp only at hfront ⊢
    rw [if_neg hne, if_neg hne]
    by_cases he : 0 < (e : ℤ)
    · rw [if_pos he, if_pos he]
      exact ⟨hfront, fun wait => by simp⟩
    · rw [if_neg he, if_neg he]
      exact hrelease hfront (hnot rfl)

/-- A visit behind `SIGTERM`. -/
lemma processRequest_closing (cfg : Config) {env : Env} (hterm : env.sigterm = true) (c : Conn) :
    Closing c (processRequest cfg env { c with tape := env.sock }).2 ∧
      (processRequest cfg env { c with tape := env.sock }).2.req.keepalive ≠ .active := by
  constructor
  · rcases processRequest_ends cfg env c with ⟨-, hvisit⟩ | ⟨-, -, hends⟩
    · exact Closing.of_quiet hvisit.quiet
    · obtain ⟨d, hfront, hback⟩ := hends.ends
      refine (Closing.of_quiet hfront).trans (Closing.trans ?_ (Closing.of_quiet hback))
      exact Closing.emit (by simp) d
  · rw [processRequest, if_pos hterm]
    simp [Conn.squashKa, Conn.upd]

namespace Server

/-- A request that is ready or blocked. -/
def Open (s : Server) (a : Addr) : Prop := s.OnList s.ready a ∨ s.OnList s.block a

/-- No request comes in between the two states, and those that end are closed. -/
structure Shrinks (s s' : Server) : Prop where
  opened : ∀ x, s'.Open x → s.Open x
  total : s'.total ≤ s.total
  closing : ∀ x, Closing (s.conns x) (s'.conns x)
  pending : s.pending = false → s'.pending = false

variable {s s' s'' : Server} {a : Addr} {r b f : List Addr} {limit : ℕ}

lemma Lists.open_iff (h : Lists limit s r b f) (a : Addr) : s.Open a ↔ a ∈ r ++ b := by
  rw [List.mem_append]
  refine or_congr ⟨?_, fun ha => ⟨r, h.shape.ready, ha⟩⟩ ⟨?_, fun ha => ⟨b, h.shape.block, ha⟩⟩
  · rintro ⟨l, hl, ha⟩
    exact h.shape.ready.eq hl ▸ ha
  · rintro ⟨l, hl, ha⟩
    exact h.shape.block.eq hl ▸ ha

namespace Shrinks

lemma trans (h : Shrinks s s') (h' : Shrinks s' s'') : Shrinks s s'' where
  opened x hx := h.opened x (h'.opened x hx)
  total := h'.total.trans h.total
  closing x := (h.closing x).trans (h'.closing x)
  pending hp := h'.pending (h.pending hp)

/-- The lists are as they were. -/
lemma of_same (hmem : s'.mem = s.mem) (hready : s'.ready = s.ready) (hblock : s'.block = s.block)
    (htotal : s'.total = s.total) (hclosing : ∀ x, Closing (s.conns x) (s'.conns x))
    (hpending : s.pending = false → s'.pending = false) : Shrinks s s' := by
  refine ⟨fun x hx => ?_, htotal.le, hclosing, hpending⟩
  rw [Open, OnList, OnList, hmem, hready, hblock] at hx
  exact hx

lemma refl (s : Server) : Shrinks s s :=
  of_same rfl rfl rfl rfl (fun _ => Closing.refl _) id

/-- The lists are made of the same requests. -/
lemma of_lists {r' b' f' : List Addr} (h : Lists limit s r b f) (h' : Lists limit s' r' b' f')
    (hsub : r' ++ b' ⊆ r ++ b) (hclosing : ∀ x, Closing (s.conns x) (s'.conns x))
    (hpending : s.pending = false → s'.pending = false) : Shrinks s s' := by
  refine ⟨fun x hx => (h.open_iff x).mpr (hsub ((h'.open_iff x).mp hx)), ?_, hclosing, hpending⟩
  have hnodup : (r' ++ b').Nodup := List.nodup_append'.mpr
    ⟨h'.shape.ready.nodup, h'.shape.block.nodup, h'.shape.ready_block⟩
  have hlen := (List.subperm_of_subset hnodup hsub).length_le
  rw [List.length_append, List.length_append] at hlen
  rw [h.total, h'.total]
  omega

end Shrinks

lemma shrinks_setConn (s : Server) (a : Addr) {c : Conn} (h : Closing (s.conns a) c) :
    Shrinks s (s.setConn a c) := by
  refine Shrinks.of_same rfl rfl rfl rfl (fun x => ?_) id
  by_cases hx : x = a
  · subst hx
    rw [conns_setConn_self]
    exact h
  · have hc : (s.setConn a c).conns x = s.conns x := Function.update_of_ne hx ..
    rw [hc]
    exact Closing.refl _

lemma Lists.shrinks_readyRequest (h : Lists limit s r b f) (ha : a ∈ b) :
    Shrinks s (s.readyRequest a) := by
  refine Shrinks.of_lists h (h.readyRequest ha) ?_ (fun _ => Closing.refl _) id
  intro x hx
  simp only [List.mem_append, List.mem_cons] at hx ⊢
  rcases hx with (rfl | hx) | hx
  · exact .inr ha
  · exact .inl hx
  · exact .inr (List.mem_of_mem_erase hx)

lemma Lists.shrinks_blockRequest (h : Lists limit s r b f) (ha : a ∈ r)
    (hcur : s.current ≠ some a) : Shrinks s (s.blockRequest a) := by
  refine Shrinks.of_lists h (h.blockRequest ha hcur) ?_ (fun _ => Closing.refl _) id
  intro x hx
  simp only [List.mem_append, List.mem_cons] at hx ⊢
  rcases hx with hx | rfl | hx
  · exact .inl (List.mem_of_mem_erase hx)
  · exact .inl ha
  · exact .inr hx

/-- A request that is freed behind `SQUASH_KA` is not blocked again. -/
lemma Lists.shrinks_freeRequest (h : Lists limit s r b f) (cfg : Config) (ha : a ∈ r)
    (hcur : s.current ≠ some a) (hka : (s.conns a).req.keepalive ≠ .active) :
    Shrinks s (s.freeRequest cfg a) := by
  obtain ⟨hclosing, hplace⟩ := freeRequest_closing cfg hka
  obtain ⟨f', hlists⟩ := h.freeRequest_ready cfg ha hcur
  refine Shrinks.of_lists h hlists ?_ (fun x => ?_) ?_
  · intro x hx
    cases hfree : freeRequestPlace (s.conns a) with
    | ready =>
        rw [hfree] at hx
        exact hx
    | block wait => exact absurd hfree (hplace wait)
    | free =>
        rw [hfree, List.mem_append] at hx
        rw [List.mem_append]
        exact hx.imp_left List.mem_of_mem_erase
  · by_cases hx : x = a
    · rw [hx, conns_freeRequest_self]
      exact hclosing
    · rw [(freeRequest_rest cfg s a).2 x hx]
      exact Closing.refl _
  · intro hp
    unfold Server.freeRequest
    cases freeRequestPlace (s.conns a) <;> exact hp

/-- The switch on the return value, behind `SQUASH_KA`. -/
lemma Lists.shrinks_settle (h : Lists limit s r b f) (cfg : Config) (ha : a ∈ r)
    (hcur : s.current ≠ some a) (hka : (s.conns a).req.keepalive ≠ .active) (retval : ℤ) :
    Shrinks s (s.settle cfg retval a) := by
  unfold Server.settle
  split_ifs
  · exact h.shrinks_blockRequest ha hcur
  · exact h.shrinks_freeRequest cfg ha hcur hka
  · exact Shrinks.refl s
  · refine shrinks_setConn s a (Closing.trans (d := (s.conns a).setStatus .dead) ?_ ?_)
    · exact Closing.of_eq rfl
    · exact Closing.emit (by simp) _

/-- The request at hand is handled and the next one comes up, while nothing is accepted. -/
lemma Lists.passOn_quiet (h : Lists limit s r b f) (hcurrent : s.current = some a)
    (hpending : s.pending = false) (cfg : Config) (maxConnections : ℕ) (acc : AcceptEnv)
    {c : Conn} (hc : Closing (s.conns a) c) :
    Lists limit (s.passOn cfg maxConnections acc a c) r b f ∧
      (s.passOn cfg maxConnections acc a c).current ≠ some a ∧
      (s.passOn cfg maxConnections acc a c).conns a = c ∧
      Shrinks s (s.passOn cfg maxConnections acc a c) := by
  have ha : a ∈ r := h.current a hcurrent
  have hnext : ∀ x ∈ (s.mem a).next, x ∈ r.erase a := fun x hx => h.shape.ready.next_mem ha hx
  have heq : s.passOn cfg maxConnections acc a c
      = { s.setConn a c with current := (s.mem a).next } := by
    have hquiet : ¬(s.setConn a c).pending = true := by
      rw [show (s.setConn a c).pending = s.pending from rfl, hpending]
      exact Bool.false_ne_true
    unfold Server.passOn
    dsimp only
    rw [if_neg hquiet]
    rfl
  have hset := h.setConn a c
  have hshrinks := shrinks_setConn s a hc
  rw [heq]
  refine ⟨⟨hset.shape, hset.total, hset.bound, hset.pending, fun x hx => ?_⟩, fun hx => ?_, ?_,
    hshrinks.trans (Shrinks.of_same rfl rfl rfl rfl (fun _ => Closing.refl _) id)⟩
  · exact List.mem_of_mem_erase (hnext x hx)
  · exact h.shape.ready.nodup.not_mem_erase (hnext a hx)
  · exact conns_setConn_self s a c

/-- **A turn of `process_requests` behind `SIGTERM`**, once `pending_requests` is off. -/
lemma Lists.shrinks_turn (h : Lists limit s r b f) (hcurrent : s.current = some a)
    (hpending : s.pending = false) (cfg : Config) (maxConnections : ℕ) {env : Env}
    (hterm : env.sigterm = true) (acc : AcceptEnv) :
    Shrinks s (s.turn cfg maxConnections env acc) := by
  have hvisit := processRequest_closing cfg hterm (s.conns a)
  rw [turn_eq hcurrent]
  generalize processRequest cfg env { s.conns a with tape := env.sock } = res at hvisit ⊢
  have hc : Closing (s.conns a) res.2 := Closing.trans (Closing.of_eq rfl) hvisit.1
  obtain ⟨hlists, hcur, hconn, hshrinks⟩ :=
    h.passOn_quiet hcurrent hpending cfg maxConnections acc hc
  refine hshrinks.trans (hlists.shrinks_settle cfg (h.current a hcurrent) hcur ?_ res.1)
  rw [hconn]
  exact hvisit.2

end Server

namespace Loop

open Server (Shrinks shrinks_setConn)

variable {s : Loop} {a : Addr} {r b f : List Addr}

/-! ### The loop -/

/-- `SIGTERM` has been noticed: no connection is pending, and the loop exits only once all requests
have ended. -/
structure Stopping (s : Loop) : Prop where
  flag : s.sigtermFlag = 2
  pending : s.phase ≠ .exited → s.server.pending = false
  exited : s.phase = .exited → ∀ x, ¬s.server.Open x

@[simp] lemma phase_startUpdate (s : Loop) : s.startUpdate.phase = .update s.server.block := rfl

@[simp] lemma phase_startRequests (acc : AcceptEnv) (s : Loop) :
    (s.startRequests acc).phase = .requests := rfl

lemma server_store (table : Bool) (i : ℕ) (w : ℤ × ℕ) (s : Loop) :
    (s.store table i w).server = s.server := by
  unfold Loop.store
  split_ifs <;> rfl

lemma server_stillBlocked (a : Addr) (s : Loop) :
    (s.stillBlocked a).server = s.server.setConn a
      ((s.server.conns a).upd fun r => { r with pollfdId := s.pfdLen }) := by
  unfold Loop.stillBlocked Loop.setPollfdId
  dsimp only
  rw [server_store]

lemma server_boaFdSet (a : Addr) (w : ℤ × ℕ) (s : Loop) :
    Shrinks s.server (s.boaFdSet a w).server := by
  have heq : (s.boaFdSet a w).server = (s.setPollfdId a s.pfdLen).server := server_store ..
  rw [heq]
  exact shrinks_setConn s.server a (Closing.of_eq rfl)

/-- What the tables need is stored on top of what becomes of the requests. -/
lemma shrinks_settle (retval : ℤ) (a : Addr) (s : Loop) :
    Shrinks (s.server.settle s.settings.cfg retval a) (s.settle retval a).server := by
  unfold Loop.settle Server.settle
  split_ifs
  · exact server_boaFdSet a _ { s with server := s.server.blockRequest a }
  · unfold Loop.freeRequest
    cases freeRequestPlace (s.server.conns a) with
    | ready => exact Shrinks.refl _
    | block wait =>
        exact server_boaFdSet a _ { s with server := s.server.freeRequest s.settings.cfg a }
    | free => exact Shrinks.refl _
  · exact Shrinks.refl _
  · exact Shrinks.refl _

lemma shrinks_turn (h : s.server.Lists (fdSetsize - 20) r b f) (hdown : s.sigtermFlag = 2)
    (hpending : s.server.pending = false) (env : Env) (acc : AcceptEnv) :
    Shrinks s.server (s.turn env acc).server := by
  cases hcurrent : s.server.current with
  | none =>
      unfold Loop.turn
      rw [hcurrent]
      exact Shrinks.refl _
  | some a =>
      have hterm : ({ env with sigterm := s.sigtermFlag ≠ 0 } : Env).sigterm = true := by
        simp [hdown]
      have hturn := h.shrinks_turn hcurrent hpending s.settings.cfg s.settings.limit hterm acc
      rw [Server.turn_eq hcurrent] at hturn
      unfold Loop.turn
      rw [hcurrent]
      dsimp only
      generalize processRequest s.settings.cfg { env with sigterm := s.sigtermFlag ≠ 0 }
        { s.server.conns a with tape := env.sock } = res at hturn ⊢
      exact hturn.trans (shrinks_settle res.1 a { s with
        server := s.server.passOn s.settings.cfg s.settings.limit acc a res.2 })

/-- The next blocked request is looked at. -/
lemma Sound.shrinks_updateBlocked (h : s.Sound False r b f) (hphase : s.phase = .update (some a))
    (timeSince : ℤ) : Shrinks s.server (s.updateBlocked timeSince a).server := by
  obtain ⟨done, todo, hmoving⟩ := h.moving hphase
  have ha : a ∈ b := by
    rw [hmoving.split]
    exact List.mem_append_right done (List.mem_of_mem_head? hmoving.current_eq.symm)
  unfold Loop.updateBlocked
  cases verdict s.settings.cfg timeSince (s.pfds (s.pollfdId a)).revents
    (s.server.conns a).req with
  | stay =>
      dsimp only
      rw [server_stillBlocked]
      exact shrinks_setConn s.server a (Closing.of_eq rfl)
  | ready status =>
      cases status with
      | none => exact h.lists.shrinks_readyRequest ha
      | some status =>
          have hset := h.lists.setConn a ((s.server.conns a).setStatus status)
          have hstatus : Closing (s.server.conns a) ((s.server.conns a).setStatus status) :=
            Closing.of_eq rfl
          exact (shrinks_setConn s.server a hstatus).trans (hset.shrinks_readyRequest ha)

/-- Nothing that the lists or the requests depend on changes. -/
lemma shrinks_server {server : Server} (hmem : server.mem = s.server.mem)
    (hready : server.ready = s.server.ready) (hblock : server.block = s.server.block)
    (htotal : server.total = s.server.total) (hconns : server.conns = s.server.conns)
    (hpending : s.server.pending = false → server.pending = false) : Shrinks s.server server :=
  Shrinks.of_same hmem hready hblock htotal
    (fun x => Closing.of_eq (by rw [hconns])) hpending

/-- **One step behind `SIGTERM`.** -/
lemma Sound.shrinks_step (h : s.Sound False r b f) (hdown : s.Stopping) (op : Op) :
    Shrinks s.server (s.step op).server := by
  have hzero : ¬s.sigtermFlag = 0 := by
    rw [hdown.flag]
    decide
  cases op with
  | sigterm =>
      unfold Loop.step
      dsimp only
      rw [if_neg hzero]
      exact Shrinks.refl _
  | go ans =>
      unfold Loop.step
      dsimp only
      rw [h.inside, if_neg Bool.false_ne_true]
      cases hphase : s.phase with
      | signals =>
          cases ans.hangup with
          | none => exact Shrinks.refl _
          | some set => exact shrinks_server rfl rfl rfl rfl rfl id
      | arm =>
          dsimp only
          unfold Loop.armServer
          rw [if_pos hzero, if_neg (show ¬s.sigtermFlag = 1 by rw [hdown.flag]; decide)]
          dsimp only
          split_ifs
          · exact Shrinks.refl _
          · exact shrinks_server rfl rfl rfl rfl rfl fun _ => rfl
      | poll =>
          dsimp only
          unfold Loop.callPoll
          by_cases hlen : s.pfdLen = 0
          · rw [if_pos hlen]
            exact Shrinks.refl _
          · rw [if_neg hlen]
            cases ans.poll <;> exact Shrinks.refl _
      | polled =>
          dsimp only
          unfold Loop.afterPoll
          rw [if_neg fun hflag => hzero hflag.1]
          exact Shrinks.refl _
      | update current =>
          cases current with
          | some a => exact h.shrinks_updateBlocked hphase ans.timeSince
          | none =>
              have hpending := hdown.pending (by rw [hphase]; simp)
              dsimp only
              unfold Loop.startRequests Server.startRequests
              rw [if_neg (by rw [hpending]; exact Bool.false_ne_true)]
              exact shrinks_server rfl rfl rfl rfl rfl id
      | requests =>
          exact shrinks_turn h.lists hdown.flag (hdown.pending (by rw [hphase]; simp)) ..
      | exited => exact Shrinks.refl _

/-- What becomes of the requests and of the tables tells nothing about where the loop stands. -/
def Alongside (s s' : Loop) : Prop := s'.sigtermFlag = s.sigtermFlag ∧ s'.phase = s.phase

lemma alongside_store (table : Bool) (i : ℕ) (w : ℤ × ℕ) (s : Loop) :
    Alongside s (s.store table i w) := by
  unfold Loop.store
  split_ifs <;> exact ⟨rfl, rfl⟩

lemma alongside_boaFdSet (a : Addr) (w : ℤ × ℕ) (s : Loop) : Alongside s (s.boaFdSet a w) :=
  alongside_store s.which s.pfdLen w (s.setPollfdId a s.pfdLen)

lemma alongside_settle (retval : ℤ) (a : Addr) (s : Loop) : Alongside s (s.settle retval a) := by
  unfold Loop.settle
  split_ifs
  · exact alongside_boaFdSet a _ { s with server := s.server.blockRequest a }
  · unfold Loop.freeRequest
    cases freeRequestPlace (s.server.conns a) with
    | ready => exact ⟨rfl, rfl⟩
    | block wait =>
        exact alongside_boaFdSet a _ { s with server := s.server.freeRequest s.settings.cfg a }
    | free => exact ⟨rfl, rfl⟩
  · exact ⟨rfl, rfl⟩
  · exact ⟨rfl, rfl⟩

lemma alongside_updateBlocked (timeSince : ℤ) (a : Addr) (s : Loop) :
    Alongside s (s.updateBlocked timeSince a) := by
  unfold Loop.updateBlocked
  cases verdict s.settings.cfg timeSince (s.pfds (s.pollfdId a)).revents
    (s.server.conns a).req with
  | stay => exact alongside_store (!s.which) s.pfdLen (s.pfds (s.pollfdId a)).watched s
  | ready status => cases status <;> exact ⟨rfl, rfl⟩

lemma turn_rest (env : Env) (acc : AcceptEnv) (s : Loop) :
    (s.turn env acc).sigtermFlag = s.sigtermFlag ∧
      ((s.turn env acc).phase = s.phase ∨ (s.turn env acc).phase = .signals) := by
  unfold Loop.turn
  cases s.server.current with
  | none => exact ⟨rfl, Or.inr rfl⟩
  | some a =>
      dsimp only
      generalize processRequest s.settings.cfg { env with sigterm := s.sigtermFlag ≠ 0 }
        { s.server.conns a with tape := env.sock } = res
      obtain ⟨hflag, hphase⟩ := alongside_settle res.1 a { s with
        server := s.server.passOn s.settings.cfg s.settings.limit acc a res.2 }
      exact ⟨hflag, Or.inl hphase⟩

/-- Only between the signals and `poll` can the loop notice `SIGTERM`, or exit behind it. -/
lemma step_rest (harm : s.phase = .arm → s.sigtermFlag = 0) (op : Op) :
    ((s.step op).sigtermFlag = 2 → s.sigtermFlag = 2) ∧
      (s.sigtermFlag = 2 → s.phase ≠ .exited →
        (s.step op).sigtermFlag = 2 ∧ (s.step op).phase ≠ .exited) := by
  have hrest : ∀ {s' : Loop} {p : Phase}, s'.sigtermFlag = s.sigtermFlag →
      (s.sigtermFlag = 2 → p ≠ .exited → s'.phase ≠ .exited) →
      (s'.sigtermFlag = 2 → s.sigtermFlag = 2) ∧
        (s.sigtermFlag = 2 → p ≠ .exited → s'.sigtermFlag = 2 ∧ s'.phase ≠ .exited) := by
    intro s' p hflag hphase
    exact ⟨fun h => hflag ▸ h, fun h hne => ⟨hflag.trans h, hphase h hne⟩⟩
  unfold Loop.step
  cases op with
  | sigterm =>
      dsimp only
      by_cases hzero : s.sigtermFlag = 0
      · rw [if_pos hzero]
        exact ⟨fun h => absurd h (by simp), fun h => absurd (h.symm.trans hzero) (by simp)⟩
      · rw [if_neg hzero]
        exact hrest rfl fun _ hne => hne
  | go ans =>
      dsimp only
      by_cases hinside : s.overrun = true
      · rw [if_pos hinside]
        exact hrest rfl fun _ hne => hne
      rw [if_neg hinside]
      cases hat : s.phase with
      | signals => cases ans.hangup <;> exact hrest rfl fun _ _ => by simp
      | arm =>
          dsimp only
          have hzero := harm hat
          have hflag : s.armServer.sigtermFlag = s.sigtermFlag := by
            unfold Loop.armServer
            rw [if_neg (not_not.mpr hzero)]
            dsimp only
            split_ifs
            · exact (alongside_store s.which s.pfdLen (s.serverS, boaRead) s).1
            · rfl
          exact hrest hflag fun h => absurd (h.symm.trans hzero) (by simp)
      | poll =>
          dsimp only
          unfold Loop.callPoll
          by_cases hlen : s.pfdLen = 0
          · rw [if_pos hlen]
            exact hrest rfl fun _ _ => by simp
          · rw [if_neg hlen]
            cases ans.poll <;> exact hrest rfl fun _ _ => by simp
      | polled =>
          dsimp only
          unfold Loop.afterPoll
          dsimp only
          split_ifs with hserver
          · exact hrest rfl fun h => absurd (h.symm.trans hserver.1) (by simp)
          · exact hrest rfl fun _ _ => by simp
          · exact hrest rfl fun _ _ => by simp
          · exact hrest rfl fun _ _ => by simp
      | update current =>
          cases current with
          | some a =>
              exact hrest (alongside_updateBlocked ans.timeSince a s).1 fun _ _ => by simp
          | none => exact hrest rfl fun _ _ => by simp
      | requests =>
          obtain ⟨hflag, hphase | hphase⟩ := turn_rest ans.env ans.acc s
          · exact hrest hflag fun _ _ => by simp [hphase, hat]
          · exact hrest hflag fun _ _ => by simp [hphase]
      | exited => exact hrest rfl fun _ hne => absurd rfl hne

/-- Where `sigterm_flag` is looked at: no connection is pending behind it, and the loop exits only
if there are no requests. -/
lemma stopping_armServer (hzero : s.sigtermFlag ≠ 0) (hflag : s.armServer.sigtermFlag = 2) :
    s.armServer.Stopping := by
  unfold Loop.armServer at hflag ⊢
  rw [if_pos hzero] at hflag ⊢
  dsimp only at hflag ⊢
  generalize (if s.sigtermFlag = 1 then s.sigtermStage1 else s) = t at hflag ⊢
  by_cases hdone : t.sigtermFlag = 2 ∧ t.server.ready = none ∧ t.server.block = none
  · rw [if_pos hdone]
    refine ⟨hdone.1, fun hne => absurd rfl hne, fun _ x hx => ?_⟩
    have hnone : ∀ l : Option Addr, l = none → ¬t.server.OnList l x := by
      rintro l rfl
      exact Server.not_onList (Linked.Represents.nil _) List.not_mem_nil
    exact hx.elim (hnone _ hdone.2.1) (hnone _ hdone.2.2)
  · rw [if_neg hdone] at hflag ⊢
    exact ⟨hflag, fun _ => rfl, fun hx => absurd hx (by simp)⟩

/-- Where nothing happens any more. -/
lemma step_stands (hzero : s.sigtermFlag ≠ 0) {op : Op}
    (h : op = .sigterm ∨ s.overrun = true ∨ s.phase = .exited) : s.step op = s := by
  unfold Loop.step
  cases op with
  | sigterm =>
      dsimp only
      rw [if_neg hzero]
  | go ans =>
      dsimp only
      rcases h with h | h | h
      · cases h
      · rw [if_pos h]
      · rw [h]
        exact ite_self s

lemma step_arm (hinside : ¬s.overrun = true) (harm : s.phase = .arm) (ans : LoopAnswers) :
    s.step (.go ans) = s.armServer := by
  unfold Loop.step
  dsimp only
  rw [if_neg hinside, harm]

/-- `SIGTERM` has been noticed only where nothing is pending any more. -/
lemma stopping_step (hdown : s.sigtermFlag = 2 → s.Stopping) (h : Reached False s) (op : Op)
    (hflag : (s.step op).sigtermFlag = 2) : (s.step op).Stopping := by
  by_cases hzero : s.sigtermFlag = 0
  · have htwo := (step_rest (fun _ => hzero) op).1 hflag
    exact absurd (htwo.symm.trans hzero) (by simp)
  by_cases hstands : op = .sigterm ∨ s.overrun = true ∨ s.phase = .exited
  · rw [step_stands hzero hstands] at hflag ⊢
    exact hdown hflag
  obtain ⟨hop, hinside, hexited⟩ : op ≠ .sigterm ∧ ¬s.overrun = true ∧ s.phase ≠ .exited := by
    simpa only [not_or] using hstands
  by_cases harm : s.phase = .arm
  · cases op with
    | sigterm => exact absurd rfl hop
    | go ans =>
        rw [step_arm hinside harm] at hflag ⊢
        exact stopping_armServer hzero hflag
  · have hrest := step_rest (fun h => absurd h harm) op
    have htwo := hrest.1 hflag
    obtain ⟨r, b, f, hsound⟩ := h (eq_false_of_ne_true hinside)
    have hpending := (hsound.shrinks_step (hdown htwo) op).pending ((hdown htwo).pending hexited)
    exact ⟨hflag, fun _ => hpending, fun hx => absurd hx (hrest.2 htwo hexited).2⟩

/-- `sigterm_flag` stays as it is. -/
lemma flag_step (hflag : s.sigtermFlag = 2) (op : Op) : (s.step op).sigtermFlag = 2 := by
  have hzero : s.sigtermFlag ≠ 0 := by
    rw [hflag]
    decide
  by_cases hstands : op = .sigterm ∨ s.overrun = true ∨ s.phase = .exited
  · rw [step_stands hzero hstands]
    exact hflag
  obtain ⟨hop, hinside, hexited⟩ : op ≠ .sigterm ∧ ¬s.overrun = true ∧ s.phase ≠ .exited := by
    simpa only [not_or] using hstands
  by_cases harm : s.phase = .arm
  · cases op with
    | sigterm => exact absurd rfl hop
    | go ans =>
        have hone : ¬s.sigtermFlag = 1 := by
          rw [hflag]
          decide
        rw [step_arm hinside harm, Loop.armServer, if_pos hzero, if_neg hone]
        dsimp only
        split_ifs <;> exact hflag
  · exact ((step_rest (fun h => absurd h harm) op).2 hflag hexited).1

/-! ### Runs -/

/-- How many steps the loop takes to its exit, if there are no requests any more. -/
def remaining : Phase → ℕ
  | .exited => 0
  | .arm => 1
  | .signals => 2
  | .requests => 3
  | .update _ => 4
  | .polled => 5
  | .poll => 6

lemma remaining_le (p : Phase) : remaining p ≤ 6 := by
  cases p <;> simp [remaining]

lemma eq_exited_of_remaining {p : Phase} (h : remaining p = 0) : p = .exited := by
  cases p <;> simp [remaining] at h ⊢

/-- Without requests, the loop gets on. -/
lemma Sound.remaining_step (h : s.Sound False r b f) (hdown : s.Stopping)
    (hnone : ∀ x, ¬s.server.Open x) (ans : LoopAnswers) :
    remaining (s.step (.go ans)).phase ≤ remaining s.phase - 1 := by
  have hempty : r ++ b = [] := List.eq_nil_iff_forall_not_mem.mpr fun x hx =>
    hnone x ((h.lists.open_iff x).mpr hx)
  obtain ⟨rfl, rfl⟩ := List.append_eq_nil_iff.mp hempty
  have hzero : s.sigtermFlag ≠ 0 := by
    rw [hdown.flag]
    decide
  unfold Loop.step
  dsimp only
  rw [h.inside, if_neg Bool.false_ne_true]
  cases hphase : s.phase with
  | signals => cases ans.hangup <;> simp [remaining]
  | arm =>
      have hdone : s.sigtermFlag = 2 ∧ s.server.ready = none ∧ s.server.block = none :=
        ⟨hdown.flag, h.lists.shape.ready.head_eq, h.lists.shape.block.head_eq⟩
      have hone : ¬s.sigtermFlag = 1 := by
        rw [hdown.flag]
        decide
      dsimp only
      rw [Loop.armServer, if_pos hzero, if_neg hone]
      dsimp only
      rw [if_pos hdone]
      exact le_rfl
  | poll =>
      dsimp only
      unfold Loop.callPoll
      by_cases hlen : s.pfdLen = 0
      · rw [if_pos hlen]
        simp [remaining]
      · rw [if_neg hlen]
        cases ans.poll <;> simp [remaining]
  | polled =>
      dsimp only
      rw [Loop.afterPoll, if_neg fun hflag => hzero hflag.1]
      simp [remaining]
  | update current =>
      obtain ⟨done, todo, hmoving⟩ := h.moving hphase
      obtain ⟨-, rfl⟩ := List.append_eq_nil_iff.mp hmoving.split.symm
      obtain rfl : current = none := hmoving.current_eq
      simp [remaining]
  | requests =>
      have hcurrent : s.server.current = none := Option.eq_none_iff_forall_not_mem.mpr
        fun x hx => List.not_mem_nil (h.lists.current x hx)
      dsimp only
      rw [Loop.turn, hcurrent]
      simp [remaining]
  | exited => simp [remaining, hphase]

/-- What is known of a state that the loop reaches behind `SIGTERM`. -/
structure Winding (s s' : Loop) : Prop where
  reached : Reached False s'
  stopping : s'.Stopping
  shrinks : Shrinks s.server s'.server

lemma Winding.step {s' : Loop} (h : Winding s s') {op : Op} (hlegal : s'.Legal op) :
    Winding s (s'.step op) := by
  refine ⟨h.reached.step hlegal False.elim, ?_, h.shrinks.trans ?_⟩
  · exact stopping_step (fun _ => h.stopping) h.reached op (flag_step h.stopping.flag op)
  · by_cases hinside : s'.overrun = true
    · rw [step_stands (by rw [h.stopping.flag]; decide) (.inr (.inl hinside))]
      exact Shrinks.refl _
    · obtain ⟨r, b, f, hsound⟩ := h.reached (eq_false_of_ne_true hinside)
      exact hsound.shrinks_step h.stopping op

/-- The loop exits once there are no requests any more. -/
lemma remaining_runs (h : Reached False s) (hdown : s.Stopping) (hinside : s.overrun = false)
    (hnone : ∀ x, ¬s.server.Open x) (answers : List LoopAnswers)
    (hlegal : Run.Allowed step Legal s (answers.map .go)) :
    remaining (Run.runs step s (answers.map .go)).phase ≤ remaining s.phase - answers.length := by
  induction answers generalizing s with
  | nil => exact le_rfl
  | cons ans answers ih =>
      obtain ⟨r, b, f, hsound⟩ := h hinside
      have hwinding := Winding.step ⟨h, hdown, Shrinks.refl s.server⟩ hlegal.1
      have hroom : s.RoomForServer (.go ans) := fun _ hzero => by
        exact absurd (hdown.flag.symm.trans hzero) (by decide)
      have hinside' := (overrun_step_iff h hlegal.1 False.elim).mpr ⟨hinside, hroom⟩
      have hrest := ih hwinding.reached hwinding.stopping hinside'
        (fun x hx => hnone x (hwinding.shrinks.opened x hx)) hlegal.2
      have hstep := hsound.remaining_step hdown hnone ans
      rw [List.map_cons, Run.runs_cons, List.length_cons]
      omega

/-- **Winding down.** From where the loop has noticed `SIGTERM`, whatever the run: no request comes
in, no request that ends is kept for another one, the loop exits only once all requests have
ended, and when they have it exits within six steps, if it has stayed inside its tables. -/
theorem winds_down (set : LoopSettings) (serverS : ℤ) (tables : Bool → ℕ → Pollfd)
    (ops ops' : List Op)
    (hops : Run.Allowed step Legal (initial set serverS tables) (ops ++ ops'))
    (hflag : (Run.runs step (initial set serverS tables) ops).sigtermFlag = 2) :
    Shrinks (Run.runs step (initial set serverS tables) ops).server
        (Run.runs step (initial set serverS tables) (ops ++ ops')).server ∧
      ((Run.runs step (initial set serverS tables) (ops ++ ops')).phase = .exited →
        ∀ a, ¬(Run.runs step (initial set serverS tables) (ops ++ ops')).server.Open a) ∧
      ((Run.runs step (initial set serverS tables) (ops ++ ops')).overrun = false →
        (∀ a, ¬(Run.runs step (initial set serverS tables) (ops ++ ops')).server.Open a) →
        ∀ answers : List LoopAnswers, 6 ≤ answers.length →
          Run.Allowed step Legal (Run.runs step (initial set serverS tables) (ops ++ ops'))
            (answers.map .go) →
          (Run.runs step (initial set serverS tables) (ops ++ ops' ++ answers.map .go)).phase
            = .exited) := by
  obtain ⟨hfront, hback⟩ := Run.allowed_append.mp hops
  have hstep : ∀ (s : Loop) op, (Reached False s ∧ (s.sigtermFlag = 2 → s.Stopping)) →
      s.Legal op →
      Reached False (s.step op) ∧ ((s.step op).sigtermFlag = 2 → (s.step op).Stopping) :=
    fun s op hs hlegal => ⟨hs.1.step hlegal False.elim, stopping_step hs.2 hs.1 op⟩
  have hstops := Run.runs_invariant hstep ops _
    ⟨reached_initial False set serverS tables, fun h => absurd h (show ¬0 = 2 by decide)⟩ hfront
  simp only [Run.runs_append]
  generalize Run.runs step (initial set serverS tables) ops = s at *
  have hwind : ∀ (s' : Loop) op, Winding s s' → s'.Legal op → Winding s (s'.step op) :=
    fun _ _ h hlegal => h.step hlegal
  have hwinding := Run.runs_invariant hwind ops' _
    ⟨hstops.1, hstops.2 hflag, Shrinks.refl s.server⟩ hback
  refine ⟨hwinding.shrinks, hwinding.stopping.exited, fun hinside hnone answers hlen hlegal => ?_⟩
  have hrest := remaining_runs hwinding.reached hwinding.stopping hinside hnone answers hlegal
  have hle := remaining_le (Run.runs step s ops').phase
  exact eq_exited_of_remaining (by omega)

/-- A connection is blocked when `SIGTERM` arrives. -/
theorem winds_down_interruptedPoll :
    Shrinks (Run.runs step listeningServer (interruptedPoll ++ [.go {}])).server
        (Run.runs step listeningServer (interruptedPoll ++ [.go {}] ++ [.go {}])).server ∧
      ((Run.runs step listeningServer (interruptedPoll ++ [.go {}] ++ [.go {}])).phase = .exited →
        ∀ a, ¬(Run.runs step listeningServer
          (interruptedPoll ++ [.go {}] ++ [.go {}])).server.Open a) := by
  have hlegal : Run.Allowed step Legal listeningServer (interruptedPoll ++ [.go {}] ++ [.go {}]) :=
    Run.allowed_append.mpr ⟨Run.allowed_append.mpr ⟨Run.allowed_append.mpr ⟨legal_firstConnection,
      Run.allowed_append.mpr ⟨legal_replicate 4 _, trivial, legal_replicate 2 _⟩⟩,
      legal_replicate 1 _⟩, legal_replicate 1 _⟩
  obtain ⟨hshrinks, hexited, -⟩ := winds_down _ _ _ _ _ hlegal (by decide +kernel)
  exact ⟨hshrinks, hexited⟩

end Loop

end Yabwf
