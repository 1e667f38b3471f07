import Yabwf.Lib.Run
import Yabwf.Output
import Yabwf.Process

/-!
The end of a request in `free_request`.

* `releaseRequest_cases`: what `free_request` does behind its flush.
* `LosesNothing`, `FlushesAsDone`: what its flush owes to the client: no request ends
  with bytes in its buffer, and every outcome is treated as in the `DONE` case of
  `process_requests`.
* `free_request_keeps_output_iff`: it does so exactly when the socket is not full.
-/

namespace Yabwf

open Memory

/-! ### Behind the flush -/

/-- The record of closing what the request still holds. -/
def Request.closing (r : Request) : List Event :=
  (if r.dataFd ≠ 0 then [.closed r.dataFd] else []) ++
    if r.postDataFd ≠ 0 then [.closed r.postDataFd] else []

lemma closeFds_eq (c : Conn) : closeFds c = { c with trace := c.trace ++ c.req.closing } := by
  rw [closeFds, Request.closing]
  by_cases hd : c.req.dataFd = 0 <;> by_cases hp : c.req.postDataFd = 0 <;>
    simp [hd, hp, Conn.emit]

/-- Whether `free_request` keeps the connection for another request. -/
def Request.KeepsConnection (r : Request) : Prop :=
  r.status.code < ReqStatus.timedOut.code ∧ r.keepalive = .active ∧ r.responseStatus < 500 ∧
    r.responseStatus ≠ 0 ∧ 0 < r.kacount

instance (r : Request) : Decidable r.KeepsConnection := by
  unfold Request.KeepsConnection
  infer_instance

/-- A request is recycled, or its socket is closed; either way its descriptors are closed
and the bytes in its buffer are given up. -/
lemma releaseRequest_cases (cfg : Config) (c : Conn) :
    (∃ n, c.req.KeepsConnection ∧
      releaseRequest cfg c = { c with
        req := { sanitizeRequest cfg false c.req with kacount := n }
        trace := c.trace ++ c.req.closing ++ [.freed true c.req.pending c.req.status] }) ∨
    ∃ n, ¬c.req.KeepsConnection ∧ releaseRequest cfg c = { c with
      req := { c.req with responseStatus := n }
      trace := c.trace ++ c.req.closing ++ [.freed false c.req.pending c.req.status]
      free := true } := by
  -- a request that has timed out is not kept, whatever its response
  have hkeep : (c.req.status.code < ReqStatus.timedOut.code ∧ c.req.keepalive = .active ∧
      (if c.req.status = .timedOut ∧ c.req.responseStatus = 0 then 408
        else c.req.responseStatus) < 500 ∧
      (if c.req.status = .timedOut ∧ c.req.responseStatus = 0 then 408
        else c.req.responseStatus) ≠ 0 ∧ 0 < c.req.kacount) ↔ c.req.KeepsConnection := by
    by_cases hlate : c.req.status = .timedOut
    · rw [Request.KeepsConnection, hlate]
      simp
    · rw [if_neg fun h => hlate h.1]
      exact Iff.rfl
  rw [releaseRequest, closeFds_eq]
  split_ifs with hrecycle
  · exact Or.inl ⟨c.req.kacount - 1, hkeep.mp hrecycle, rfl⟩
  · exact Or.inr ⟨_, fun h => hrecycle (hkeep.mpr h), rfl⟩

lemma releaseRequest_trace (cfg : Config) (c : Conn) : ∃ recycled,
    (releaseRequest cfg c).trace
      = c.trace ++ c.req.closing ++ [.freed recycled c.req.pending c.req.status] := by
  rcases releaseRequest_cases cfg c with ⟨n, -, h⟩ | ⟨n, -, h⟩
  · exact ⟨true, by rw [h]⟩
  · exact ⟨false, by rw [h]⟩

/-- The only end of a request that `free_request` records behind its flush. -/
lemma eq_of_freed_mem_releaseRequest {cfg : Config} {c : Conn} {recycled : Bool}
    {unsent : Bytes} {status : ReqStatus}
    (h : .freed recycled unsent status ∈ (releaseRequest cfg c).trace.drop c.trace.length) :
    unsent = c.req.pending ∧ status = c.req.status := by
  obtain ⟨b, htrace⟩ := releaseRequest_trace cfg c
  rw [htrace, List.append_assoc, List.drop_left, List.mem_append, List.mem_singleton] at h
  rcases h with h | h
  · rw [Request.closing] at h
    split_ifs at h <;> simp at h
  · cases h
    exact ⟨rfl, rfl⟩

/-! ### The flush -/

/-- No request ends with bytes in its buffer, unless it is `DEAD` or `TIMED_OUT`. -/
def LosesNothing (cfg : Config) (c : Conn) : Prop :=
  ∀ recycled unsent status,
    .freed recycled unsent status ∈ (freeRequest cfg c).trace.drop c.trace.length →
      unsent = [] ∨ status = .timedOut ∨ status = .dead

/-- The flush of `free_request` is followed by what follows the one of the `DONE` case:
the request ends if and only if that case says so. -/
def FlushesAsDone (cfg : Config) (c : Conn) : Prop :=
  c.req.bufferEnd ≠ 0 → c.req.status.code < ReqStatus.timedOut.code →
    freeRequest cfg c =
      if (processDone (c.setStatus .done)).1 = 0 then
        releaseRequest cfg (processDone (c.setStatus .done)).2
      else (processDone (c.setStatus .done)).2

/-- The number of bytes that `req_flush` offers to the socket. -/
def Request.bytesToWrite (r : Request) : ℕ :=
  (r.bufferEnd + 2 ^ 32 - r.bufferStart) % 2 ^ 32

/-- `free_request` has something to send, and the socket takes nothing now. -/
def SocketFull (c : Conn) : Prop :=
  c.req.bufferEnd ≠ 0 ∧ c.req.status.code < ReqStatus.timedOut.code ∧
    c.req.bytesToWrite ≠ 0 ∧ c.pop.1 = .again

lemma pending_eq_nil {r : Request} (h : r.bufferEnd = 0) : r.pending = [] := by
  rw [Request.pending, h, Nat.zero_sub]
  rfl

/-- `req_flush` on a request that is `DONE`, unless the socket is full: it returns `-2`,
or the number of bytes in the buffer. -/
lemma reqFlush_of_not_full {c : Conn} (hdone : c.req.status = .done)
    (hfull : c.req.bytesToWrite ≠ 0 → c.pop.1 ≠ .again) :
    (reqFlush c).1 = -2 ∨ (reqFlush c).1 = (reqFlush c).2.req.bufferEnd := by
  rw [Request.bytesToWrite] at hfull
  rw [reqFlush, hdone, if_neg (lt_irrefl _)]
  split_ifs with hzero
  · exact Or.inr rfl
  · have hpop := hfull hzero
    generalize c.pop = answer at hpop ⊢
    obtain ⟨res, d⟩ := answer
    cases res with
    | accept n => exact Or.inr rfl
    | again => exact absurd rfl hpop
    | intr => exact Or.inl rfl
    | error => exact Or.inl rfl

lemma reqFlush_of_full {c : Conn} (hdone : c.req.status = .done)
    (hzero : c.req.bytesToWrite ≠ 0) (hpop : c.pop.1 = .again) :
    reqFlush c = (-1, c.pop.2) := by
  rw [Request.bytesToWrite] at hzero
  rw [reqFlush, hdone, if_neg (lt_irrefl _), if_neg hzero]
  rcases hc : c.pop with ⟨res, d⟩
  rw [hc] at hpop
  simp only at hpop
  rw [hpop]

lemma setStatus_pop (s : ReqStatus) (c : Conn) : (c.setStatus s).pop.1 = c.pop.1 := by
  rw [Conn.pop, Conn.pop, Conn.setStatus, Conn.upd_tape]
  cases c.tape <;> rfl

/-- A request that ends does not stay as it was. -/
lemma releaseRequest_ne (cfg : Config) (c : Conn) : releaseRequest cfg c ≠ c := by
  intro h
  obtain ⟨b, htrace⟩ := releaseRequest_trace cfg c
  have hlen := congrArg List.length htrace
  rw [h] at hlen
  simp only [List.length_append, List.length_singleton] at hlen
  omega

lemma processDone_outputs (c : Conn) : Outputs c (processDone c).2 := by
  rw [processDone]
  have hflush := reqFlush_outputs c
  generalize reqFlush c = res at hflush ⊢
  obtain ⟨i, d⟩ := res
  simp only at hflush ⊢
  split_ifs
  · exact (hflush.trans (setStatus_outputs done_le_dead d)).snd
  · exact hflush.snd
  · exact hflush.snd

/-- The `DONE` case says that a request has ended when nothing is left in its buffer or
when its socket is broken. -/
lemma processDone_eq_zero {c : Conn} (hdone : c.req.status = .done)
    (hfull : c.req.bytesToWrite ≠ 0 → c.pop.1 ≠ .again) (hzero : (processDone c).1 = 0) :
    (processDone c).2.req.bufferEnd = 0 ∨ (processDone c).2.req.status = .dead := by
  have hflush := reqFlush_of_not_full hdone hfull
  rw [processDone] at hzero ⊢
  generalize reqFlush c = res at hflush hzero ⊢
  obtain ⟨i, d⟩ := res
  simp only at hflush hzero ⊢
  rcases hflush with rfl | rfl
  · exact Or.inr rfl
  · have hne : (d.req.bufferEnd : ℤ) ≠ -2 := by omega
    rw [if_neg hne] at hzero ⊢
    split_ifs at hzero with hpos
    · cases hzero
    · rw [if_neg hpos]
      exact Or.inl (Int.natCast_eq_zero.mp hzero)

/-- Behind a flush that does not find the socket full, the request ends exactly when the
`DONE` case says so. -/
lemma freeRequest_eq_processDone {cfg : Config} {c : Conn} (hend : c.req.bufferEnd ≠ 0)
    (hstatus : c.req.status.code < ReqStatus.timedOut.code)
    (hfull : c.req.bytesToWrite ≠ 0 → c.pop.1 ≠ .again) :
    freeRequest cfg c =
      if (processDone (c.setStatus .done)).1 = 0 then
        releaseRequest cfg (processDone (c.setStatus .done)).2
      else (processDone (c.setStatus .done)).2 := by
  rw [freeRequest, if_pos ⟨hend, hstatus⟩, processDone]
  have hflush := reqFlush_of_not_full (c := c.setStatus .done) rfl
    fun h => by rw [setStatus_pop]; exact hfull h
  generalize reqFlush (c.setStatus .done) = res at hflush ⊢
  obtain ⟨i, d⟩ := res
  simp only at hflush ⊢
  rcases hflush with rfl | rfl
  · rfl
  · by_cases hzero : d.req.bufferEnd = 0
    · simp [hzero]
    · have hpos : 0 < (d.req.bufferEnd : ℤ) := by omega
      have hne : (d.req.bufferEnd : ℤ) ≠ -2 := by omega
      rw [if_neg hne, if_neg hne, if_pos hpos, if_pos hpos]
      rfl

/-- The end of a request loses nothing when nothing is left, or when it is no longer served. -/
lemma of_freed_mem {cfg : Config} {c d : Conn} (hout : Outputs c d)
    (hd : d.req.bufferEnd = 0 ∨ d.req.status = .timedOut ∨ d.req.status = .dead)
    {recycled : Bool} {unsent : Bytes} {status : ReqStatus}
    (h : .freed recycled unsent status ∈ (releaseRequest cfg d).trace.drop c.trace.length) :
    unsent = [] ∨ status = .timedOut ∨ status = .dead := by
  obtain ⟨es, hes, hkind⟩ := hout.events
  obtain ⟨b, htrace⟩ := releaseRequest_trace cfg d
  have hmem : Event.freed recycled unsent status ∈ es ∨
      Event.freed recycled unsent status ∈ (releaseRequest cfg d).trace.drop d.trace.length := by
    rw [htrace, hes, List.append_assoc (c.trace ++ es), List.append_assoc, List.drop_left,
      List.mem_append] at h
    rw [htrace, List.append_assoc d.trace, List.drop_left]
    exact h
  rcases hmem with hmem | hmem
  · exact absurd (hkind _ hmem) Bool.false_ne_true
  · obtain ⟨rfl, rfl⟩ := eq_of_freed_mem_releaseRequest hmem
    rcases hd with hd | hd
    · exact Or.inl (pending_eq_nil hd)
    · exact Or.inr hd

lemma losesNothing_of_not_full {cfg : Config} {c : Conn} (hfull : ¬SocketFull c) :
    LosesNothing cfg c := by
  intro recycled unsent status hmem
  by_cases hflush : c.req.bufferEnd ≠ 0 ∧ c.req.status.code < ReqStatus.timedOut.code
  · have hpop : c.req.bytesToWrite ≠ 0 → c.pop.1 ≠ .again :=
      fun hzero hagain => hfull ⟨hflush.1, hflush.2, hzero, hagain⟩
    have hpop' : (c.setStatus .done).req.bytesToWrite ≠ 0 →
        (c.setStatus .done).pop.1 ≠ .again := by
      rw [setStatus_pop]
      exact hpop
    have hout : Outputs c (processDone (c.setStatus .done)).2 :=
      (setStatus_outputs (s := .done) le_rfl c).trans (processDone_outputs _)
    have hend := processDone_eq_zero (c := c.setStatus .done) rfl hpop'
    rw [freeRequest_eq_processDone hflush.1 hflush.2 hpop] at hmem
    generalize processDone (c.setStatus .done) = res at hout hend hmem
    by_cases hzero : res.1 = 0
    · rw [if_pos hzero] at hmem
      exact of_freed_mem hout ((hend hzero).imp_right Or.inr) hmem
    · rw [if_neg hzero] at hmem
      obtain ⟨es, hes, hkind⟩ := hout.events
      rw [hes, List.drop_left] at hmem
      exact absurd (hkind _ hmem) Bool.false_ne_true
  · rw [freeRequest, if_neg hflush] at hmem
    refine of_freed_mem (Outputs.refl c) ?_ hmem
    rw [not_and_or, not_not, not_lt] at hflush
    refine hflush.imp_right fun hstatus => ?_
    generalize c.req.status = s at hstatus
    revert hstatus
    cases s <;> decide

/-- **The flush of `free_request`**: it loses nothing and agrees with the `DONE` case of
`process_requests` exactly when the socket is not full. -/
theorem free_request_keeps_output_iff (cfg : Config) (c : Conn) :
    LosesNothing cfg c ∧ FlushesAsDone cfg c ↔ ¬SocketFull c := by
  constructor
  · rintro ⟨-, hdone⟩ ⟨hend, hstatus, hzero, hpop⟩
    have heq := hdone hend hstatus
    have hflush := reqFlush_of_full (c := c.setStatus .done) rfl hzero
      (by rwa [setStatus_pop])
    -- the request ends where the `DONE` case keeps it
    rw [freeRequest, if_pos ⟨hend, hstatus⟩, processDone, hflush] at heq
    exact releaseRequest_ne cfg _ heq
  · intro hfull
    refine ⟨losesNothing_of_not_full hfull, fun hend hstatus => ?_⟩
    exact freeRequest_eq_processDone hend hstatus
      fun hzero hagain => hfull ⟨hend, hstatus, hzero, hagain⟩

/-! ### A page for a socket that is full -/

/-- A server whose documents are below `/w`. -/
def emptyServer : Config := { documentRoot := some (str "/w") }

/-- A request for a document that does not exist, up to the return of `read_header`, while
the socket is full. -/
def unsentPage : ℤ × Conn :=
  processRequest emptyServer {} (Run.runs (step emptyServer) .initial
    [.accept {} 4 [] [] 0 false,
      .visit { sockRead := .data (str "GET /x HTTP/1.0\r\n\r\n") }])

/-- The page that says so is lost. -/
theorem free_request_loses_page :
    unsentPage.1 = 0 ∧ ¬(LosesNothing emptyServer unsentPage.2 ∧
      FlushesAsDone emptyServer unsentPage.2) := by
  have hlost : ∃ e ∈ (freeRequest emptyServer unsentPage.2).trace.drop unsentPage.2.trace.length,
      e = .freed false unsentPage.2.req.pending .done ∧ unsentPage.2.req.pending ≠ [] := by
    decide +kernel
  refine ⟨by decide +kernel, fun h => ?_⟩
  obtain ⟨e, hmem, rfl, hne⟩ := hlost
  rcases h.1 _ _ _ hmem with h | h | h
  · exact hne h
  · cases h
  · cases h

end Yabwf
