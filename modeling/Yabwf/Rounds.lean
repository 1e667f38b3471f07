import Yabwf.Server

/-!
One call of `process_requests`.

* `Round`: what the call has still to visit are the last requests on `request_ready`, from
  `current` on.
* `Lists.getRequest_front`: a request that comes in meanwhile goes in front of all of them.
* `Round.turn`: a turn takes up the first of them, and leaves the others.
* `visits_eq_take`: each request that is ready at the start is visited once, in order, whatever
  the handlers and `accept` answer.
-/

namespace Yabwf

namespace Server

open Linked

/-- The requests that `process_requests` has still to visit. -/
structure Round (s : Server) (r todo : List Addr) : Prop where
  suffix : todo <:+ r
  current_eq : s.current = todo.head?

section

variable {cfg : Config} {maxConnections limit : ℕ} {s : Server} {a : Addr} {r b f : List Addr}

/-- A request that has just been accepted waits for its header, or it is one too many. -/
lemma getRequest_status (cfg : Config) (env : Env) (fd : ℕ) (localIp remoteIp : Bytes)
    (port : ℕ) (tooMany : Bool) (c : Conn) :
    (Yabwf.getRequest cfg env fd localIp remoteIp port tooMany c).req.status = .readHeader ∨
      (Yabwf.getRequest cfg env fd localIp remoteIp port tooMany c).req.status = .done := by
  rw [Yabwf.getRequest]
  cases tooMany with
  | false => exact .inl rfl
  | true => exact .inr rfl

@[simp] lemma conns_setConn_self (s : Server) (a : Addr) (c : Conn) :
    (s.setConn a c).conns a = c := Function.update_self ..

/-- The requests that a call of `get_request` puts in front of `request_ready`. -/
structure Joined (s s' : Server) (r b new : List Addr) : Prop where
  few : new.length ≤ 1
  current : s'.current = s.current
  conns : ∀ x ∈ r ++ b, s'.conns x = s.conns x
  status : ∀ x ∈ new, (s'.conns x).req.status = .readHeader ∨ (s'.conns x).req.status = .done

lemma Joined.nil (s : Server) (r b : List Addr) : Joined s s r b [] :=
  ⟨Nat.zero_le 1, rfl, fun _ _ => rfl, fun _ hx => absurd hx List.not_mem_nil⟩

/-- `get_request` puts at most one request on `request_ready`, and puts it in front. -/
lemma Lists.getRequest_front (h : Lists limit s r b f) (cfg : Config)
    (hlimit : maxConnections ≤ limit) (hpending : s.pending = true) {acc : AcceptEnv}
    (hacc : AcceptEnv.Fresh s acc) :
    ∃ new f', Lists limit (s.getRequest cfg maxConnections acc) (new ++ r) b f' ∧
      Joined s (s.getRequest cfg maxConnections acc) r b new := by
  obtain ⟨r', f', hlists, -, -⟩ : ∃ r' f',
      Lists limit (s.getRequest cfg maxConnections acc) r' b f' ∧ r ⊆ r' ∧
        ∀ x ∈ b, (s.getRequest cfg maxConnections acc).conns x = s.conns x :=
    h.getRequest hlimit hpending hacc
  suffices hnew : ∃ new,
      Represents (s.getRequest cfg maxConnections acc).mem
        (s.getRequest cfg maxConnections acc).ready (new ++ r) ∧
      Joined s (s.getRequest cfg maxConnections acc) r b new by
    obtain ⟨new, hready, hjoined⟩ := hnew
    exact ⟨new, f', hlists.shape.ready.eq hready ▸ hlists, hjoined⟩
  have hother : ∀ a c, a ∉ r → a ∉ b → ∀ x ∈ r ++ b,
      Function.update s.conns a c x = s.conns x := by
    intro a c har hab x hx
    refine Function.update_of_ne (fun hxa : x = a => ?_) ..
    exact (List.mem_append.mp hx).elim (fun h => har (hxa ▸ h)) fun h => hab (hxa ▸ h)
  unfold Server.getRequest
  cases acc.result with
  | failed =>
      refine ⟨[], h.shape.ready, Nat.zero_le 1, rfl, fun _ _ => rfl, fun x hx => ?_⟩
      exact absurd hx List.not_mem_nil
  | closed => exact ⟨[], h.shape.ready, Joined.nil s r b⟩
  | ok fd setupOk localIp remoteIp port =>
      rcases newRequest_cases h.shape hacc with heq | ⟨a, mem, free, f', heq, hshape, hout⟩
      · rw [heq]
        exact ⟨[], h.shape.ready, Joined.nil s r b⟩
      · rw [heq]
        dsimp only
        by_cases hsetup : setupOk = false
        · rw [if_pos hsetup]
          refine ⟨[], ?_, Nat.zero_le 1, rfl, hother a _ hout.1 hout.2.1, fun x hx => ?_⟩
          · exact (hshape.enqueueFree (s := { s with mem := mem, free := free }) hout).ready
          · exact absurd hx List.not_mem_nil
        · rw [if_neg hsetup]
          refine ⟨[a], ?_, le_rfl, rfl, hother a _ hout.1 hout.2.1, fun x hx => ?_⟩
          · exact (hshape.enqueueReady (s := { s with mem := mem, free := free }) hout).ready
          · obtain rfl := List.mem_singleton.mp hx
            simp only [Server.enqueueReady, conns_setConn_self]
            exact getRequest_status cfg acc.env fd localIp remoteIp port _ _

/-- The call of `get_request` where `pending_requests` is set. -/
lemma Lists.getRequest_front_ite (h : Lists limit s r b f) (cfg : Config)
    (hlimit : maxConnections ≤ limit) {acc : AcceptEnv} (hacc : AcceptEnv.Fresh s acc) :
    ∃ new f', Lists limit (if s.pending then s.getRequest cfg maxConnections acc else s)
        (new ++ r) b f' ∧
      Joined s (if s.pending then s.getRequest cfg maxConnections acc else s) r b new := by
  by_cases hpending : s.pending = true
  · rw [if_pos hpending]
    exact h.getRequest_front cfg hlimit hpending hacc
  · rw [if_neg hpending]
    exact ⟨[], f, h, Joined.nil s r b⟩

/-- The requests that are ready once a request has been released to a place. -/
def readyWith (a : Addr) (r : List Addr) : Place → List Addr
  | .ready => r
  | _ => r.erase a

/-- `free_request` takes the request off `request_ready`, unless its buffer is not empty yet. -/
lemma Lists.freeRequest_ready (h : Lists limit s r b f) (cfg : Config) (ha : a ∈ r)
    (hcur : s.current ≠ some a) : ∃ f', Lists limit (s.freeRequest cfg a)
      (readyWith a r (freeRequestPlace (s.conns a)))
      (blockedWith a b (freeRequestPlace (s.conns a))) f' := by
  obtain ⟨r', f', hlists⟩ := h.freeRequest cfg ha hcur
  have hset := (h.setConn a (Yabwf.freeRequest cfg (s.conns a))).shape
  have hout := hset.dequeueReady ha
  have hready : Represents (s.freeRequest cfg a).mem (s.freeRequest cfg a).ready
      (readyWith a r (freeRequestPlace (s.conns a))) := by
    unfold Server.freeRequest
    cases freeRequestPlace (s.conns a) with
    | ready => exact hset.ready
    | block wait =>
        exact (hout.1.enqueueBlock (s := (s.setConn a _).dequeueReady a) hout.2).ready
    | free => exact (hout.1.enqueueFree (s := (s.setConn a _).dequeueReady a) hout.2).ready
  exact ⟨f', hlists.shape.ready.eq hready ▸ hlists⟩

lemma conns_freeRequest_self (cfg : Config) (s : Server) (a : Addr) :
    (s.freeRequest cfg a).conns a = Yabwf.freeRequest cfg (s.conns a) := by
  unfold Server.freeRequest
  cases freeRequestPlace (s.conns a) <;> exact conns_setConn_self s a _

/-- `free_request` moves the request on, and touches no other one. -/
lemma freeRequest_rest (cfg : Config) (s : Server) (a : Addr) :
    (s.freeRequest cfg a).current = s.current ∧
      ∀ x, x ≠ a → (s.freeRequest cfg a).conns x = s.conns x := by
  have hconns : ∀ x, x ≠ a →
      (s.setConn a (Yabwf.freeRequest cfg (s.conns a))).conns x = s.conns x :=
    fun x hx => Function.update_of_ne hx ..
  unfold Server.freeRequest
  cases freeRequestPlace (s.conns a) <;> exact ⟨rfl, hconns⟩

/-- The switch leaves the request on `request_ready`, or takes it off. -/
lemma Lists.settle_ready (h : Lists limit s r b f) (cfg : Config) (ha : a ∈ r)
    (hcur : s.current ≠ some a) (retval : ℤ) :
    ∃ r' b' f', Lists limit (s.settle cfg retval a) r' b' f' ∧ (r' = r ∨ r' = r.erase a) ∧
      (s.settle cfg retval a).current = s.current ∧
      ∀ x, x ≠ a → (s.settle cfg retval a).conns x = s.conns x := by
  unfold Server.settle
  split_ifs
  · exact ⟨_, _, _, h.blockRequest ha hcur, .inr rfl, rfl, fun _ _ => rfl⟩
  · obtain ⟨f', hlists⟩ := h.freeRequest_ready cfg ha hcur
    refine ⟨_, _, f', hlists, ?_, freeRequest_rest cfg s a⟩
    cases freeRequestPlace (s.conns a) with
    | ready => exact .inl rfl
    | block wait => exact .inr rfl
    | free => exact .inr rfl
  · exact ⟨_, _, _, h, .inl rfl, rfl, fun _ _ => rfl⟩
  · exact ⟨_, _, _, h.setConn .., .inl rfl, rfl, fun x hx => Function.update_of_ne hx ..⟩

/-- What is behind a request on a list without repetition stays behind when the request goes. -/
lemma suffix_erase {todo : List Addr} (hr : r.Nodup) (h : a :: todo <:+ r) :
    todo <:+ r.erase a := by
  obtain ⟨done, rfl⟩ := h
  have ha : a ∉ done := fun ha =>
    (List.nodup_append.mp hr).2.2 a ha a List.mem_cons_self rfl
  rw [List.erase_append_right _ ha, List.erase_cons_head]
  exact List.suffix_append done todo

/-- The next request on the list is the next one to be visited. -/
lemma next_eq_head? {todo : List Addr} (h : Represents s.mem s.ready r)
    (hsuffix : a :: todo <:+ r) :
    (s.mem a).next = todo.head? := by
  obtain ⟨done, rfl⟩ := hsuffix
  exact h.links.2

/-- A turn of `process_requests` up to the switch on the return value, once the handlers have
left a request as `c`. -/
def passOn (cfg : Config) (maxConnections : ℕ) (acc : AcceptEnv) (a : Addr) (c : Conn)
    (s : Server) : Server :=
  let s := s.setConn a c
  let s := if s.pending then s.getRequest cfg maxConnections acc else s
  { s with current := (s.mem a).next }

lemma turn_eq (hcurrent : s.current = some a) (cfg : Config) (maxConnections : ℕ) (env : Env)
    (acc : AcceptEnv) : s.turn cfg maxConnections env acc =
      settle cfg (processRequest cfg env { s.conns a with tape := env.sock }).1 a
        (s.passOn cfg maxConnections acc a
          (processRequest cfg env { s.conns a with tape := env.sock }).2) := by
  unfold Server.turn
  rw [hcurrent]
  rfl

/-- What is known behind the handlers: the other requests are as they were, and the next one of
them comes next. -/
structure PassedOn (s s' : Server) (a : Addr) (c : Conn) (r b new todo : List Addr) : Prop where
  current : s'.current = todo.head?
  suffix : a :: todo <:+ new ++ r
  nodup : (new ++ r).Nodup
  conn : s'.conns a = c
  conns : ∀ x ∈ r ++ b, x ≠ a → s'.conns x = s.conns x

lemma PassedOn.mem {s' : Server} {c : Conn} {new todo : List Addr}
    (h : PassedOn s s' a c r b new todo) : a ∈ new ++ r := h.suffix.subset List.mem_cons_self

lemma PassedOn.current_ne {s' : Server} {c : Conn} {new todo : List Addr}
    (h : PassedOn s s' a c r b new todo) : s'.current ≠ some a := by
  rw [h.current]
  exact fun hx => h.nodup.not_mem_erase
    ((suffix_erase h.nodup h.suffix).subset (List.mem_of_mem_head? hx))

lemma Round.passOn {todo : List Addr} (hround : s.Round r (a :: todo)) (h : Lists limit s r b f)
    (cfg : Config) (hlimit : maxConnections ≤ limit) {acc : AcceptEnv}
    (hacc : AcceptEnv.Fresh s acc) (c : Conn) :
    ∃ new f', Lists limit (s.passOn cfg maxConnections acc a c) (new ++ r) b f' ∧
      PassedOn s (s.passOn cfg maxConnections acc a c) a c r b new todo := by
  obtain ⟨new, f', hlists, hjoined⟩ := (h.setConn a c).getRequest_front_ite cfg hlimit hacc
  unfold Server.passOn
  dsimp only
  generalize (if (s.setConn a c).pending = true then
    (s.setConn a c).getRequest cfg maxConnections acc else s.setConn a c) = s'
    at hlists hjoined ⊢
  have hsuffix : a :: todo <:+ new ++ r := hround.suffix.trans (List.suffix_append new r)
  have har : a ∈ r := hround.suffix.subset List.mem_cons_self
  -- the request behind this one is read before this one is moved
  have hnext : (s'.mem a).next = todo.head? := next_eq_head? hlists.shape.ready hsuffix
  have htodo := suffix_erase hlists.shape.ready.nodup hsuffix
  refine ⟨new, f', ⟨hlists.shape, hlists.total, hlists.bound, hlists.pending, fun x hx => ?_⟩,
    hnext, hsuffix, hlists.shape.ready.nodup, ?_, fun x hx hxa => ?_⟩
  · have hx' : x ∈ todo.head? := hnext ▸ hx
    exact List.mem_of_mem_erase (htodo.subset (List.mem_of_mem_head? hx'))
  · exact (hjoined.conns a (List.mem_append_left b har)).trans (conns_setConn_self s a c)
  · exact (hjoined.conns x hx).trans (Function.update_of_ne hxa ..)

/-- What comes behind the request at hand stays, wherever the switch moves that one. -/
lemma PassedOn.suffix_settled {s' : Server} {c : Conn} {new todo r' : List Addr}
    (h : PassedOn s s' a c r b new todo) (hr' : r' = new ++ r ∨ r' = (new ++ r).erase a) :
    todo <:+ r' := by
  rcases hr' with rfl | rfl
  · exact (List.suffix_cons a todo).trans h.suffix
  · exact suffix_erase h.nodup h.suffix

/-- **A turn of `process_requests`** takes up the request at hand; those behind it stay as they
are, and come next. -/
lemma Round.turn {todo : List Addr} (hround : s.Round r (a :: todo))
    (h : Lists maxConnections s r b f) (cfg : Config) (env : Env) {acc : AcceptEnv}
    (hacc : AcceptEnv.Fresh s acc) :
    ∃ r' b' f', Lists maxConnections (s.turn cfg maxConnections env acc) r' b' f' ∧
      (s.turn cfg maxConnections env acc).Round r' todo ∧
      ∀ x ∈ todo, (s.turn cfg maxConnections env acc).conns x = s.conns x := by
  rw [turn_eq hround.current_eq]
  generalize processRequest cfg env { s.conns a with tape := env.sock } = res
  obtain ⟨new, f', hlists, hpassed⟩ := hround.passOn h cfg le_rfl hacc res.2
  obtain ⟨r', b', f'', hsettled, hr', hcur, hconns⟩ :=
    hlists.settle_ready cfg hpassed.mem hpassed.current_ne res.1
  refine ⟨r', b', f'', hsettled, ⟨hpassed.suffix_settled hr', hcur.trans hpassed.current⟩,
    fun x hx => ?_⟩
  have htodo : todo <:+ r := (List.suffix_cons a todo).trans hround.suffix
  have hxa : x ≠ a := fun hxa => hpassed.nodup.not_mem_erase
    ((suffix_erase hpassed.nodup hpassed.suffix).subset (hxa ▸ hx))
  exact (hconns x hxa).trans (hpassed.conns x (List.mem_append_left b (htodo.subset hx)) hxa)

end

/-! ### The visits of a call -/

section

variable (cfg : Config) (maxConnections : ℕ)

/-- The requests that the turns of `process_requests` visit, as they are found, and the state
behind the last turn. -/
def visits (s : Server) : List (Env × AcceptEnv) → List (Addr × Conn) × Server
  | [] => ([], s)
  | (env, acc) :: answers =>
      match s.current with
      | none => ([], s)
      | some a =>
          let res := visits (s.turn cfg maxConnections env acc) answers
          ((a, s.conns a) :: res.1, res.2)

/-- `malloc` returns memory that is not in use, in every turn. -/
def FreshTurns (s : Server) : List (Env × AcceptEnv) → Prop :=
  Run.Allowed (fun s x => s.turn cfg maxConnections x.1 x.2)
    (fun s x => AcceptEnv.Fresh s x.2) s

/-- The loop reaches the state. -/
def Reached (havePoll : Bool) (s : Server) : Prop :=
  ∃ ops, Run.Allowed (step cfg maxConnections havePoll) Legal {} ops ∧
    Run.runs (step cfg maxConnections havePoll) {} ops = s

end

variable {cfg : Config} {maxConnections : ℕ} {s : Server} {r b f : List Addr}

/-- The turns visit what there is to be visited, and stop behind it. -/
lemma Round.visits {todo : List Addr} (hround : s.Round r todo)
    (h : Lists maxConnections s r b f) (answers : List (Env × AcceptEnv))
    (hacc : s.FreshTurns cfg maxConnections answers) :
    (s.visits cfg maxConnections answers).1
        = (todo.map fun a => (a, s.conns a)).take answers.length ∧
      ((s.visits cfg maxConnections answers).2.current = none ↔
        todo.length ≤ answers.length) := by
  induction answers generalizing s r b f todo with
  | nil =>
      refine ⟨rfl, ?_⟩
      rw [List.length_nil, Nat.le_zero, List.length_eq_zero_iff, ← List.head?_eq_none_iff,
        ← hround.current_eq]
      exact Iff.rfl
  | cons x answers ih =>
      cases todo with
      | nil =>
          have hcurrent : s.current = none := hround.current_eq
          rw [Server.visits, hcurrent]
          exact ⟨rfl, iff_of_true hcurrent (Nat.zero_le _)⟩
      | cons a todo =>
          have hcurrent : s.current = some a := hround.current_eq
          obtain ⟨r', b', f', hlists, hnext, hconns⟩ := hround.turn h cfg x.1 hacc.1
          obtain ⟨hvisits, hend⟩ := ih hnext hlists hacc.2
          have hfound : (todo.map fun y => (y, (s.turn cfg maxConnections x.1 x.2).conns y))
              = todo.map fun y => (y, s.conns y) :=
            List.map_congr_left fun y hy => by rw [hconns y hy]
          rw [Server.visits, hcurrent]
          dsimp only
          rw [hvisits, hend, hfound]
          exact ⟨rfl, by simp⟩

/-- A call of `process_requests` has all ready requests before it. -/
lemma Lists.startRequests {limit : ℕ} (h : Lists limit s r b f) (cfg : Config)
    (hlimit : maxConnections ≤ limit) {acc : AcceptEnv} (hacc : AcceptEnv.Fresh s acc) :
    ∃ new f', Lists limit (s.startRequests cfg maxConnections acc) (new ++ r) b f' ∧
      (s.startRequests cfg maxConnections acc).Round (new ++ r) (new ++ r) ∧
      ∀ x ∈ r ++ b, (s.startRequests cfg maxConnections acc).conns x = s.conns x := by
  obtain ⟨new, f', hlists, hjoined⟩ := h.getRequest_front_ite cfg hlimit hacc
  refine ⟨new, f', ⟨hlists.shape, hlists.total, hlists.bound, hlists.pending, ?_⟩,
    ⟨List.suffix_rfl, hlists.shape.ready.head_eq⟩, hjoined.conns⟩
  exact fun x hx => List.mem_of_mem_head? (hlists.shape.ready.head_eq ▸ hx)

/-- **One call of `process_requests`.** In every state that the loop reaches, the call visits
each request that is on `request_ready` at its start once, in the order of the list and as it was
at the start, and then returns, whatever the handlers and `accept` answer. Requests that come in
meanwhile wait for the next call. -/
theorem visits_eq_take {cfg : Config} {maxConnections : ℕ} {havePoll : Bool} {s : Server}
    (hs : Reached cfg maxConnections havePoll s) {acc : AcceptEnv} (hacc : AcceptEnv.Fresh s acc)
    (answers : List (Env × AcceptEnv))
    (hturns : FreshTurns cfg maxConnections (s.startRequests cfg maxConnections acc) answers) :
    ∃ l : List Addr,
      Represents (s.startRequests cfg maxConnections acc).mem
        (s.startRequests cfg maxConnections acc).ready l ∧
      (visits cfg maxConnections (s.startRequests cfg maxConnections acc) answers).1
        = (l.map fun a => (a, (s.startRequests cfg maxConnections acc).conns a)).take
          answers.length ∧
      ((visits cfg maxConnections (s.startRequests cfg maxConnections acc) answers).2.current
        = none ↔ l.length ≤ answers.length) := by
  obtain ⟨ops, hops, rfl⟩ := hs
  obtain ⟨r, b, f, h⟩ := lists_runs havePoll ops hops
  obtain ⟨new, f', hlists, hround, -⟩ := h.startRequests cfg le_rfl hacc
  exact ⟨new ++ r, hlists.shape.ready, hround.visits hlists answers hturns⟩

/-- A connection is waiting to be accepted. -/
def pendingServer : Server := Server.step {} 1 true {} (.wait true)

/-- It is accepted. -/
def firstAccept : AcceptEnv := ⟨{}, .ok 7 true [] [] 0, some 1⟩

theorem visits_eq_take_firstAccept :
    ∃ l : List Addr,
      Represents (pendingServer.startRequests {} 1 firstAccept).mem
        (pendingServer.startRequests {} 1 firstAccept).ready l ∧
      (visits {} 1 (pendingServer.startRequests {} 1 firstAccept) [({}, {})]).1
        = (l.map fun a => (a, (pendingServer.startRequests {} 1 firstAccept).conns a)).take 1 ∧
      ((visits {} 1 (pendingServer.startRequests {} 1 firstAccept) [({}, {})]).2.current = none ↔
        l.length ≤ 1) := by
  have hreached : Reached {} 1 true pendingServer := ⟨[.wait true], ⟨trivial, trivial⟩, rfl⟩
  have hempty : ∀ a, ¬OnList pendingServer none a := fun a =>
    not_onList (Represents.nil _) List.not_mem_nil
  refine visits_eq_take hreached ?_ [({}, {})] ⟨fun a ha => ?_, trivial⟩
  · rintro a -
    exact ⟨hempty a, hempty a, hempty a⟩
  · cases ha

end Server

end Yabwf
