import Yabwf.Lib.Linked
import Yabwf.Queue

/-!
The requests of the server: the three lists of `queue.c`, and `get_request`,
`process_requests` and `free_request` as far as they move requests between them.

* `Server`: the links that the requests carry, the heads of the lists, the contents of the
  requests, `total_connections` and `pending_requests`, and the variable `current` of
  `process_requests`.
* `Server.step`: what the loop does, down to the turns of `process_requests`.
* `Server.Lists`: the lists are lists, without a request in common, and
  `total_connections` counts the requests that are ready or blocked.

`max_connections` is at most `FD_SETSIZE - 20`, so that `total_connections` is a number.
-/

namespace Yabwf

open Linked

/-- The address of a request. -/
abbrev Addr := ℕ

/-- The global variables that hold the requests. -/
structure Server where
  /-- The links `next` and `prev`. -/
  mem : Addr → Links Addr := fun _ => {}
  /-- `request_ready`. -/
  ready : Option Addr := none
  /-- `request_block`. -/
  block : Option Addr := none
  /-- `request_free`. -/
  free : Option Addr := none
  conns : Addr → Conn := fun _ => Conn.initial
  /-- `total_connections`. -/
  total : ℤ := 0
  /-- `pending_requests`. -/
  pending : Bool := false
  /-- Where `process_requests` stands on `request_ready`. -/
  current : Option Addr := none

/-- What `accept` and the calls on the new socket answer: `accept` fails, the socket is
closed at once, or there is a connection, whose set-up can fail. -/
inductive AcceptResult
  | failed
  | closed
  | ok (fd : ℕ) (setupOk : Bool) (localIp remoteIp : Bytes) (port : ℕ)

/-- The answers to a call of `get_request`, with what `malloc` returns. -/
structure AcceptEnv where
  env : Env := {}
  result : AcceptResult := .failed
  malloc : Option Addr := none

namespace Server

/-- Changing a request. -/
def setConn (s : Server) (a : Addr) (c : Conn) : Server :=
  { s with conns := Function.update s.conns a c }

/-! ### The lists -/

/-- `enqueue(&request_ready, ·)`. -/
def enqueueReady (a : Addr) (s : Server) : Server :=
  { s with ready := (enqueue s.ready a s.mem).1, mem := (enqueue s.ready a s.mem).2 }

/-- `enqueue(&request_block, ·)`. -/
def enqueueBlock (a : Addr) (s : Server) : Server :=
  { s with block := (enqueue s.block a s.mem).1, mem := (enqueue s.block a s.mem).2 }

/-- `enqueue(&request_free, ·)`. -/
def enqueueFree (a : Addr) (s : Server) : Server :=
  { s with free := (enqueue s.free a s.mem).1, mem := (enqueue s.free a s.mem).2 }

/-- `dequeue(&request_ready, ·)`. -/
def dequeueReady (a : Addr) (s : Server) : Server :=
  { s with ready := (dequeue s.ready a s.mem).1, mem := (dequeue s.ready a s.mem).2 }

/-- `dequeue(&request_block, ·)`. -/
def dequeueBlock (a : Addr) (s : Server) : Server :=
  { s with block := (dequeue s.block a s.mem).1, mem := (dequeue s.block a s.mem).2 }

/-- `dequeue(&request_free, ·)`. -/
def dequeueFree (a : Addr) (s : Server) : Server :=
  { s with free := (dequeue s.free a s.mem).1, mem := (dequeue s.free a s.mem).2 }

/-- `block_request`. -/
def blockRequest (a : Addr) (s : Server) : Server := (s.dequeueReady a).enqueueBlock a

/-- `ready_request`. -/
def readyRequest (a : Addr) (s : Server) : Server := (s.dequeueBlock a).enqueueReady a

/-- `new_request`, but for `sanitize_request`, which is part of what becomes of the
request. -/
def newRequest (malloc : Option Addr) (s : Server) : Option Addr × Server :=
  match s.free with
  | some a => (some a, s.dequeueFree a)
  | none => (malloc, s)

/-- `free_requests`. -/
def freeRequests (s : Server) : Server := { s with free := none }

section

variable (cfg : Config) (maxConnections : ℕ)

/-- `get_request`. -/
def getRequest (acc : AcceptEnv) (s : Server) : Server :=
  match acc.result with
  | .failed => { s with pending := false }
  | .closed => s
  | .ok fd setupOk localIp remoteIp port =>
      match s.newRequest acc.malloc with
      | (none, s) => s
      | (some a, s) =>
          if setupOk = false then
            (s.setConn a ((s.conns a).upd fun r =>
              { sanitizeRequest cfg true r with fd := fd, localIpAddr := localIp })).enqueueFree a
          else
            let tooMany := decide ((maxConnections : ℤ) < s.total + 1)
            let s := { s with total := s.total + 1, pending := s.pending && !tooMany }
            (s.setConn a (Yabwf.getRequest cfg acc.env fd localIp remoteIp port tooMany
              (s.conns a))).enqueueReady a

/-- `free_request`: the request stays where it is, is blocked, or is given to
`request_free`. -/
def freeRequest (a : Addr) (s : Server) : Server :=
  let s' := s.setConn a (Yabwf.freeRequest cfg (s.conns a))
  match freeRequestPlace (s.conns a) with
  | .ready => s'
  | .block _ => (s'.dequeueReady a).enqueueBlock a
  | .free =>
      let s' := s'.dequeueReady a
      { s' with total := s'.total - 1 }.enqueueFree a

/-- The start of `process_requests`. -/
def startRequests (acc : AcceptEnv) (s : Server) : Server :=
  let s := if s.pending then s.getRequest cfg maxConnections acc else s
  { s with current := s.ready }

/-- The switch on the return value in `process_requests`. -/
def settle (retval : ℤ) (a : Addr) (s : Server) : Server :=
  if retval = -1 then s.blockRequest a
  else if retval = 0 then s.freeRequest cfg a
  else if retval = 1 then s
  else s.setConn a (s.conns a).die

/-- A turn of the loop of `process_requests`. -/
def turn (env : Env) (acc : AcceptEnv) (s : Server) : Server :=
  match s.current with
  | none => s
  | some a =>
      let res := processRequest cfg env { s.conns a with tape := env.sock }
      let s := s.setConn a res.2
      let s := if s.pending then s.getRequest cfg maxConnections acc else s
      settle cfg res.1 a { s with current := (s.mem a).next }

/-! ### The loop -/

/-- What the loop does. -/
inductive Op
  /-- `sighup_run` frees the requests on `request_free`. -/
  | hangup
  /-- The wait for something to happen; whether the server socket is readable then. -/
  | wait (readable : Bool)
  /-- A blocked request is made ready, perhaps after it has timed out or its socket has
  failed. -/
  | update (a : Addr) (late : Option ReqStatus)
  /-- `process_requests` is called. -/
  | start (acc : AcceptEnv)
  /-- `process_requests` goes on. -/
  | turn (env : Env) (acc : AcceptEnv)

/-- One step of the loop. With `poll` the server socket is watched below the limit on
connections, with `select` also at it. -/
def step (havePoll : Bool) (s : Server) : Op → Server
  | .hangup => s.freeRequests
  | .wait readable =>
      { s with pending := readable &&
          if havePoll then decide (s.total < maxConnections)
          else !decide ((maxConnections : ℤ) < s.total) }
  | .update a late =>
      (match late with
        | none => s
        | some status => s.setConn a ((s.conns a).setStatus status)).readyRequest a
  | .start acc => s.startRequests cfg maxConnections acc
  | .turn env acc => s.turn cfg maxConnections env acc

end

/-- A request is on the list. -/
def OnList (s : Server) (head : Option Addr) (a : Addr) : Prop :=
  ∃ l, Represents s.mem head l ∧ a ∈ l

lemma not_onList {s : Server} {head : Option Addr} {l : List Addr} (h : Represents s.mem head l)
    {a : Addr} (ha : a ∉ l) : ¬s.OnList head a := fun ⟨_, hl, hmem⟩ => ha (h.eq hl ▸ hmem)

/-- `malloc` returns memory that is not in use. -/
def AcceptEnv.Fresh (s : Server) (acc : AcceptEnv) : Prop :=
  ∀ a ∈ acc.malloc, ¬s.OnList s.ready a ∧ ¬s.OnList s.block a ∧ ¬s.OnList s.free a

/-- The requests that are made ready are those on `request_block`, and `malloc` works. -/
def Legal (s : Server) : Op → Prop
  | .hangup | .wait _ => True
  | .update a _ => s.OnList s.block a
  | .start acc | .turn _ acc => AcceptEnv.Fresh s acc

/-! ### The lists are lists -/

/-- The heads show the lists `r`, `b` and `f`, which have no request in common. -/
structure Shape (mem : Addr → Links Addr) (ready block free : Option Addr)
    (r b f : List Addr) : Prop where
  ready : Represents mem ready r
  block : Represents mem block b
  free : Represents mem free f
  ready_block : r.Disjoint b
  ready_free : r.Disjoint f
  block_free : b.Disjoint f

/-- The lists, and what is counted of them. -/
structure Lists (maxConnections : ℕ) (s : Server) (r b f : List Addr) : Prop where
  shape : Shape s.mem s.ready s.block s.free r b f
  total : s.total = r.length + b.length
  bound : s.total ≤ maxConnections + 1
  /-- The server socket is read only below the limit. -/
  pending : s.pending = true → s.total ≤ maxConnections
  current : ∀ a ∈ s.current, a ∈ r

section

variable {s : Server} {a : Addr} {r b f : List Addr}

lemma Shape.enqueueReady (h : Shape s.mem s.ready s.block s.free r b f)
    (ha : a ∉ r ∧ a ∉ b ∧ a ∉ f) :
    Shape (s.enqueueReady a).mem (s.enqueueReady a).ready s.block s.free (a :: r) b f where
  ready := h.ready.enqueue ha.1
  block := h.ready.enqueue_other h.block ha.2.1 h.ready_block
  free := h.ready.enqueue_other h.free ha.2.2 h.ready_free
  ready_block := List.disjoint_cons_left.mpr ⟨ha.2.1, h.ready_block⟩
  ready_free := List.disjoint_cons_left.mpr ⟨ha.2.2, h.ready_free⟩
  block_free := h.block_free

lemma Shape.enqueueBlock (h : Shape s.mem s.ready s.block s.free r b f)
    (ha : a ∉ r ∧ a ∉ b ∧ a ∉ f) :
    Shape (s.enqueueBlock a).mem s.ready (s.enqueueBlock a).block s.free r (a :: b) f where
  ready := h.block.enqueue_other h.ready ha.1 h.ready_block.symm
  block := h.block.enqueue ha.2.1
  free := h.block.enqueue_other h.free ha.2.2 h.block_free
  ready_block := List.disjoint_cons_right.mpr ⟨ha.1, h.ready_block⟩
  ready_free := h.ready_free
  block_free := List.disjoint_cons_left.mpr ⟨ha.2.2, h.block_free⟩

lemma Shape.enqueueFree (h : Shape s.mem s.ready s.block s.free r b f)
    (ha : a ∉ r ∧ a ∉ b ∧ a ∉ f) :
    Shape (s.enqueueFree a).mem s.ready s.block (s.enqueueFree a).free r b (a :: f) where
  ready := h.free.enqueue_other h.ready ha.1 h.ready_free.symm
  block := h.free.enqueue_other h.block ha.2.1 h.block_free.symm
  free := h.free.enqueue ha.2.2
  ready_block := h.ready_block
  ready_free := List.disjoint_cons_right.mpr ⟨ha.1, h.ready_free⟩
  block_free := List.disjoint_cons_right.mpr ⟨ha.2.1, h.block_free⟩

/-- A request that is taken from a list is on none. -/
lemma Shape.dequeueReady (h : Shape s.mem s.ready s.block s.free r b f) (ha : a ∈ r) :
    Shape (s.dequeueReady a).mem (s.dequeueReady a).ready s.block s.free (r.erase a) b f ∧
      a ∉ r.erase a ∧ a ∉ b ∧ a ∉ f := by
  refine ⟨⟨h.ready.dequeue_erase ha, ?_, ?_, ?_, ?_, h.block_free⟩, ?_, ?_, ?_⟩
  · exact h.ready.dequeue_erase_other h.block ha h.ready_block
  · exact h.ready.dequeue_erase_other h.free ha h.ready_free
  · exact List.disjoint_of_subset_left List.erase_subset h.ready_block
  · exact List.disjoint_of_subset_left List.erase_subset h.ready_free
  · exact h.ready.nodup.not_mem_erase
  · exact fun hb => h.ready_block ha hb
  · exact fun hf => h.ready_free ha hf

lemma Shape.dequeueBlock (h : Shape s.mem s.ready s.block s.free r b f) (ha : a ∈ b) :
    Shape (s.dequeueBlock a).mem s.ready (s.dequeueBlock a).block s.free r (b.erase a) f ∧
      a ∉ r ∧ a ∉ b.erase a ∧ a ∉ f := by
  refine ⟨⟨?_, h.block.dequeue_erase ha, ?_, ?_, h.ready_free, ?_⟩, ?_, ?_, ?_⟩
  · exact h.block.dequeue_erase_other h.ready ha h.ready_block.symm
  · exact h.block.dequeue_erase_other h.free ha h.block_free
  · exact List.disjoint_of_subset_right List.erase_subset h.ready_block
  · exact List.disjoint_of_subset_left List.erase_subset h.block_free
  · exact fun hr => h.ready_block hr ha
  · exact h.block.nodup.not_mem_erase
  · exact fun hf => h.block_free ha hf

lemma Shape.dequeueFree (h : Shape s.mem s.ready s.block s.free r b f) (ha : a ∈ f) :
    Shape (s.dequeueFree a).mem s.ready s.block (s.dequeueFree a).free r b (f.erase a) ∧
      a ∉ r ∧ a ∉ b ∧ a ∉ f.erase a := by
  refine ⟨⟨?_, ?_, h.free.dequeue_erase ha, h.ready_block, ?_, ?_⟩, ?_, ?_, ?_⟩
  · exact h.free.dequeue_erase_other h.ready ha h.ready_free.symm
  · exact h.free.dequeue_erase_other h.block ha h.block_free.symm
  · exact List.disjoint_of_subset_right List.erase_subset h.ready_free
  · exact List.disjoint_of_subset_right List.erase_subset h.block_free
  · exact fun hr => h.ready_free hr ha
  · exact fun hb => h.block_free hb ha
  · exact h.free.nodup.not_mem_erase

/-- `new_request` finds a request that is on no list. -/
lemma newRequest_cases (h : Shape s.mem s.ready s.block s.free r b f) {acc : AcceptEnv}
    (hacc : AcceptEnv.Fresh s acc) :
    s.newRequest acc.malloc = (none, s) ∨
      ∃ a mem free f', s.newRequest acc.malloc = (some a, { s with mem := mem, free := free }) ∧
        Shape mem s.ready s.block free r b f' ∧ a ∉ r ∧ a ∉ b ∧ a ∉ f' := by
  rw [newRequest]
  cases hfree : s.free with
  | some a =>
      have ha : a ∈ f := List.mem_of_mem_head? (h.free.head_eq ▸ hfree)
      obtain ⟨hshape, hout⟩ := h.dequeueFree ha
      exact .inr ⟨a, _, _, f.erase a, rfl, hshape, hout⟩
  | none =>
      dsimp only
      cases hmalloc : acc.malloc with
      | none => exact .inl rfl
      | some a =>
          obtain ⟨hr, hb, hf⟩ := hacc a hmalloc
          refine .inr ⟨a, s.mem, none, f, ?_, hfree ▸ h, ?_, ?_, ?_⟩
          · rw [← hfree]
          · exact fun ha => hr ⟨r, h.ready, ha⟩
          · exact fun ha => hb ⟨b, h.block, ha⟩
          · exact fun ha => hf ⟨f, h.free, ha⟩

variable {cfg : Config} {maxConnections limit : ℕ}

/-- `get_request` puts at most one request on `request_ready`, in front, and leaves the blocked
requests alone. -/
lemma Lists.getRequest (h : Lists limit s r b f) (hlimit : maxConnections ≤ limit)
    (hpending : s.pending = true) {acc : AcceptEnv} (hacc : AcceptEnv.Fresh s acc) :
    ∃ r' f', Lists limit (s.getRequest cfg maxConnections acc) r' b f' ∧ r ⊆ r' ∧
      ∀ x ∈ b, (s.getRequest cfg maxConnections acc).conns x = s.conns x := by
  have hle := h.pending hpending
  have hother : ∀ a c, a ∉ b → ∀ x ∈ b, Function.update s.conns a c x = s.conns x :=
    fun a c ha x hx => Function.update_of_ne (fun hxa : x = a => ha (hxa ▸ hx)) ..
  unfold Server.getRequest
  cases acc.result with
  | failed =>
      exact ⟨r, f, ⟨h.shape, h.total, h.bound, nofun, h.current⟩, List.Subset.refl r,
        fun _ _ => rfl⟩
  | closed => exact ⟨r, f, h, List.Subset.refl r, fun _ _ => rfl⟩
  | ok fd setupOk localIp remoteIp port =>
      rcases newRequest_cases h.shape hacc with heq | ⟨a, mem, free, f', heq, hshape, hout⟩
      · rw [heq]
        exact ⟨r, f, h, List.Subset.refl r, fun _ _ => rfl⟩
      · rw [heq]
        dsimp only
        by_cases hsetup : setupOk = false
        · rw [if_pos hsetup]
          refine ⟨r, a :: f', ⟨?_, h.total, h.bound, h.pending, h.current⟩, List.Subset.refl r,
            hother a _ hout.2.1⟩
          exact hshape.enqueueFree (s := { s with mem := mem, free := free }) hout
        · rw [if_neg hsetup]
          refine ⟨a :: r, f', ⟨?_, ?_, ?_, ?_, ?_⟩, List.subset_cons_self a r,
            hother a _ hout.2.1⟩
          · exact hshape.enqueueReady (s := { s with mem := mem, free := free }) hout
          · show s.total + 1 = ((a :: r).length : ℤ) + b.length
            rw [h.total, List.length_cons]
            push_cast
            ring
          · show s.total + 1 ≤ (limit : ℤ) + 1
            omega
          · intro hp
            have hroom : ¬(maxConnections : ℤ) < s.total + 1 := by
              simpa [hpending, Server.enqueueReady, setConn] using hp
            show s.total + 1 ≤ (limit : ℤ)
            omega
          · exact fun x hx => List.mem_cons_of_mem a (h.current x hx)

/-- The call of `get_request` where `pending_requests` is set. -/
lemma Lists.getRequest_ite (h : Lists limit s r b f) (cfg : Config)
    (hlimit : maxConnections ≤ limit)
    {acc : AcceptEnv} (hacc : AcceptEnv.Fresh s acc) :
    ∃ r' f', Lists limit
      (if s.pending then s.getRequest cfg maxConnections acc else s) r' b f' ∧ r ⊆ r' ∧
      ∀ x ∈ b, (if s.pending then s.getRequest cfg maxConnections acc else s).conns x
        = s.conns x := by
  by_cases hpending : s.pending = true
  · rw [if_pos hpending]
    exact h.getRequest hlimit hpending hacc
  · rw [if_neg hpending]
    exact ⟨r, f, h, List.Subset.refl r, fun _ _ => rfl⟩

lemma length_erase_add_one (ha : a ∈ r) : ((r.erase a).length : ℤ) + 1 = r.length := by
  have hpos := List.length_pos_of_mem ha
  rw [List.length_erase_of_mem ha]
  omega

/-- `block_request` moves a request from `request_ready` to `request_block`. -/
lemma Lists.blockRequest (h : Lists limit s r b f) (ha : a ∈ r) (hcur : s.current ≠ some a) :
    Lists limit (s.blockRequest a) (r.erase a) (a :: b) f := by
  obtain ⟨hshape, hout⟩ := h.shape.dequeueReady ha
  refine ⟨hshape.enqueueBlock (s := s.dequeueReady a) hout, ?_, h.bound, h.pending, ?_⟩
  · show s.total = ((r.erase a).length : ℤ) + (a :: b).length
    have hlen := length_erase_add_one ha
    have htotal := h.total
    rw [List.length_cons]
    push_cast
    omega
  · intro x hx
    have hxa : x ≠ a := fun hxa => hcur (hxa ▸ hx)
    exact (List.mem_erase_of_ne hxa).mpr (h.current x hx)

/-- `ready_request` moves a request from `request_block` to `request_ready`. -/
lemma Lists.readyRequest (h : Lists limit s r b f) (ha : a ∈ b) :
    Lists limit (s.readyRequest a) (a :: r) (b.erase a) f := by
  obtain ⟨hshape, hout⟩ := h.shape.dequeueBlock ha
  refine ⟨hshape.enqueueReady (s := s.dequeueBlock a) hout, ?_, h.bound, h.pending, ?_⟩
  · show s.total = ((a :: r).length : ℤ) + (b.erase a).length
    have hlen := length_erase_add_one ha
    have htotal := h.total
    rw [List.length_cons]
    push_cast
    omega
  · exact fun x hx => List.mem_cons_of_mem a (h.current x hx)

/-- Changing the contents of a request moves none. -/
lemma Lists.setConn (h : Lists limit s r b f) (a : Addr) (c : Conn) :
    Lists limit (s.setConn a c) r b f :=
  ⟨h.shape, h.total, h.bound, h.pending, h.current⟩

/-- The requests that are blocked once a request has been released to a place. -/
def blockedWith (a : Addr) (b : List Addr) : Place → List Addr
  | .block _ => a :: b
  | _ => b

/-- `free_request` leaves the request on `request_ready`, or moves it to `request_block` or to
`request_free`, and counts it out in the last case only. -/
lemma Lists.freeRequest (h : Lists limit s r b f) (cfg : Config) (ha : a ∈ r)
    (hcur : s.current ≠ some a) : ∃ r' f', Lists limit (s.freeRequest cfg a) r'
      (blockedWith a b (freeRequestPlace (s.conns a))) f' := by
  have hset := h.setConn a (Yabwf.freeRequest cfg (s.conns a))
  unfold Server.freeRequest
  cases freeRequestPlace (s.conns a) with
  | ready => exact ⟨r, f, hset⟩
  | block wait => exact ⟨r.erase a, f, hset.blockRequest ha hcur⟩
  | free =>
      obtain ⟨hshape, hout⟩ := h.shape.dequeueReady ha
      refine ⟨r.erase a, a :: f, ?_, ?_, ?_, ?_, ?_⟩
      · exact hshape.enqueueFree (s := s.dequeueReady a) hout
      · show s.total - 1 = ((r.erase a).length : ℤ) + b.length
        have hlen := length_erase_add_one ha
        have htotal := h.total
        omega
      · have hbound := h.bound
        show s.total - 1 ≤ (limit : ℤ) + 1
        omega
      · intro hp
        have hpending := h.pending hp
        show s.total - 1 ≤ (limit : ℤ)
        omega
      · intro x hx
        have hxa : x ≠ a := fun hxa => hcur (hxa ▸ hx)
        exact (List.mem_erase_of_ne hxa).mpr (h.current x hx)

/-- The switch moves the request behind which the loop stands. -/
lemma Lists.settle (h : Lists limit s r b f) (ha : a ∈ r) (hcur : s.current ≠ some a)
    (retval : ℤ) : ∃ r' b' f', Lists limit (s.settle cfg retval a) r' b' f' := by
  unfold Server.settle
  split_ifs
  · exact ⟨_, _, _, h.blockRequest ha hcur⟩
  · obtain ⟨r', f', hlists⟩ := h.freeRequest cfg ha hcur
    exact ⟨r', _, f', hlists⟩
  · exact ⟨_, _, _, h⟩
  · exact ⟨_, _, _, h.setConn ..⟩

/-- `sighup_run` empties `request_free`. -/
lemma Lists.freeRequests (h : Lists limit s r b f) : Lists limit s.freeRequests r b [] where
  shape :=
    { ready := h.shape.ready
      block := h.shape.block
      free := Represents.nil s.mem
      ready_block := h.shape.ready_block
      ready_free := List.disjoint_nil_right r
      block_free := List.disjoint_nil_right b }
  total := h.total
  bound := h.bound
  pending := h.pending
  current := h.current

/-- A turn of `process_requests` keeps the lists. -/
lemma Lists.turn (h : Lists maxConnections s r b f) (env : Env) {acc : AcceptEnv}
    (hacc : AcceptEnv.Fresh s acc) :
    ∃ r' b' f', Lists maxConnections (s.turn cfg maxConnections env acc) r' b' f' := by
  unfold Server.turn
  cases hcurrent : s.current with
  | none => exact ⟨r, b, f, h⟩
  | some a =>
      dsimp only
      generalize processRequest cfg env { s.conns a with tape := env.sock } = res
      obtain ⟨r', f', hlists, hsub, -⟩ :=
        (h.setConn a res.2).getRequest_ite cfg le_rfl hacc
      generalize (if (s.setConn a res.2).pending = true then
        (s.setConn a res.2).getRequest cfg maxConnections acc else s.setConn a res.2) = s'
        at hlists ⊢
      have ha : a ∈ r' := hsub (h.current a hcurrent)
      -- the request behind this one is read before this one is moved
      have hnext : ∀ x ∈ (s'.mem a).next, x ∈ r'.erase a := fun x hx =>
        hlists.shape.ready.next_mem ha hx
      refine Lists.settle (s := { s' with current := (s'.mem a).next })
        ⟨hlists.shape, hlists.total, hlists.bound, hlists.pending, ?_⟩ ha ?_ res.1
      · exact fun x hx => List.mem_of_mem_erase (hnext x hx)
      · exact fun hx => hlists.shape.ready.nodup.not_mem_erase (hnext a hx)

/-- **One step of the loop** keeps the lists. -/
lemma Lists.step (h : Lists maxConnections s r b f) {havePoll : Bool} {op : Op}
    (hop : s.Legal op) :
    ∃ r' b' f', Lists maxConnections (s.step cfg maxConnections havePoll op) r' b' f' := by
  cases op with
  | hangup => exact ⟨r, b, [], h.freeRequests⟩
  | wait readable =>
      refine ⟨r, b, f, ⟨h.shape, h.total, h.bound, fun hp => ?_, h.current⟩⟩
      have hroom : s.total < maxConnections ∨ ¬(maxConnections : ℤ) < s.total := by
        cases havePoll <;> simp [Server.step] at hp <;> omega
      show s.total ≤ (maxConnections : ℤ)
      omega
  | update a late =>
      obtain ⟨b', hb', ha⟩ := hop
      have hab : a ∈ b := h.shape.block.eq hb' ▸ ha
      cases late with
      | none => exact ⟨_, _, _, h.readyRequest hab⟩
      | some status => exact ⟨_, _, _, (h.setConn a _).readyRequest hab⟩
  | start acc =>
      obtain ⟨r', f', hlists, -⟩ := h.getRequest_ite cfg le_rfl hop
      refine ⟨r', b, f', ⟨hlists.shape, hlists.total, hlists.bound, hlists.pending, ?_⟩⟩
      exact fun x hx => List.mem_of_mem_head? (hlists.shape.ready.head_eq ▸ hx)
  | turn env acc => exact h.turn env hop

/-- There are no requests when the server starts. -/
lemma lists_empty (maxConnections : ℕ) : Lists maxConnections {} [] [] [] := by
  have hnil := Represents.nil fun _ : Addr => {}
  refine ⟨⟨hnil, hnil, hnil, ?_, ?_, ?_⟩, rfl, ?_, nofun, nofun⟩
  · exact List.disjoint_nil_left []
  · exact List.disjoint_nil_left []
  · exact List.disjoint_nil_left []
  · show (0 : ℤ) ≤ maxConnections + 1
    omega

lemma lists_runs (havePoll : Bool) (ops : List Op)
    (hops : Run.Allowed (step cfg maxConnections havePoll) Legal {} ops) :
    ∃ r b f, Lists maxConnections (Run.runs (step cfg maxConnections havePoll) {} ops) r b f := by
  have hstep : ∀ (s : Server) op, (∃ r b f, Lists maxConnections s r b f) → s.Legal op →
      ∃ r b f, Lists maxConnections (s.step cfg maxConnections havePoll op) r b f :=
    fun _ _ ⟨_, _, _, h⟩ hop => h.step hop
  exact Run.runs_invariant hstep ops _ ⟨[], [], [], lists_empty maxConnections⟩ hops

end

/-- **The queues and the count of connections.** After every run of the loop the three heads
show doubly linked lists without repetition and without a request in common, and
`total_connections` is the number of requests that are ready or blocked, at most one more than
`max_connections`. -/
theorem queues_well_formed (cfg : Config) (maxConnections : ℕ) (havePoll : Bool)
    (ops : List Op) (hops : Run.Allowed (step cfg maxConnections havePoll) Legal {} ops) :
    ∃ r b f,
      Represents (Run.runs (step cfg maxConnections havePoll) {} ops).mem
        (Run.runs (step cfg maxConnections havePoll) {} ops).ready r ∧
      Represents (Run.runs (step cfg maxConnections havePoll) {} ops).mem
        (Run.runs (step cfg maxConnections havePoll) {} ops).block b ∧
      Represents (Run.runs (step cfg maxConnections havePoll) {} ops).mem
        (Run.runs (step cfg maxConnections havePoll) {} ops).free f ∧
      r.Disjoint b ∧ r.Disjoint f ∧ b.Disjoint f ∧
      (Run.runs (step cfg maxConnections havePoll) {} ops).total = r.length + b.length ∧
      0 ≤ (Run.runs (step cfg maxConnections havePoll) {} ops).total ∧
      (Run.runs (step cfg maxConnections havePoll) {} ops).total ≤ maxConnections + 1 := by
  obtain ⟨r, b, f, h⟩ := lists_runs havePoll ops hops
  refine ⟨r, b, f, h.shape.ready, h.shape.block, h.shape.free, h.shape.ready_block,
    h.shape.ready_free, h.shape.block_free, h.total, ?_, h.bound⟩
  rw [h.total]
  positivity

/-- A connection that waits for its header, is made ready, and meets the end of the input. -/
def someOps : List Op :=
  [.wait true, .start ⟨{}, .ok 7 true [] [] 0, some 1⟩, .turn {} {}, .hangup, .wait true,
    .update 1 none, .start {}, .turn { sockRead := .data [] } {}]

theorem queues_well_formed_someOps :
    ∃ r b f,
      Represents (Run.runs (step {} 1 true) {} someOps).mem
        (Run.runs (step {} 1 true) {} someOps).ready r ∧
      Represents (Run.runs (step {} 1 true) {} someOps).mem
        (Run.runs (step {} 1 true) {} someOps).block b ∧
      Represents (Run.runs (step {} 1 true) {} someOps).mem
        (Run.runs (step {} 1 true) {} someOps).free f ∧
      r.Disjoint b ∧ r.Disjoint f ∧ b.Disjoint f ∧
      (Run.runs (step {} 1 true) {} someOps).total = r.length + b.length ∧
      0 ≤ (Run.runs (step {} 1 true) {} someOps).total ∧
      (Run.runs (step {} 1 true) {} someOps).total ≤ (1 : ℕ) + 1 := by
  have hempty : ∀ a, ¬OnList {} none a := fun a =>
    not_onList (Represents.nil _) List.not_mem_nil
  have hblock : OnList (Run.runs (step {} 1 true) {} (someOps.take 5))
      (Run.runs (step {} 1 true) {} (someOps.take 5)).block 1 :=
    ⟨[1], ⟨by decide, ⟨by decide, by decide, trivial⟩,
      List.nodup_singleton 1⟩, List.mem_singleton_self 1⟩
  refine queues_well_formed {} 1 true someOps ⟨trivial, ?_, ?_, trivial, trivial, hblock, ?_, ?_,
    trivial⟩
  · rintro a -
    exact ⟨hempty a, hempty a, hempty a⟩
  · exact nofun
  · exact nofun
  · exact nofun

end Server

end Yabwf
