import Yabwf.Handlers
import Yabwf.Release

/-!
One visit of `process_requests`.

* `Conn.cursors`, `reqFlush_cases`, `flushFirst_cases`: a flush moves the cursors of the
  buffer and leaves everything else alone.
* `processRequest_cases`, `visit_cases`: a visit ends with its flush, or runs a handler.
-/

namespace Yabwf

/-- What a flush does to a connection. -/
def Conn.cursors (t : List WriteResult) (es : List Event) (s e : ℕ) (c : Conn) : Conn :=
  { c with
    req := { c.req with bufferStart := s, bufferEnd := e }
    tape := t
    trace := c.trace ++ es }

lemma flushDone_cases (c : Conn) :
    ∃ s e : ℕ, flushDone c = ((e : ℤ), c.cursors c.tape [] s e) ∧
      (c.req.bufferStart = c.req.bufferEnd ∧ s = 0 ∧ e = 0 ∨
        c.req.bufferStart ≠ c.req.bufferEnd ∧ s = c.req.bufferStart ∧ e = c.req.bufferEnd) := by
  rw [flushDone]
  by_cases heq : c.req.bufferStart = c.req.bufferEnd
  · rw [if_pos heq]
    refine ⟨0, 0, ?_, Or.inl ⟨heq, rfl, rfl⟩⟩
    rw [Conn.cursors, List.append_nil]
    rfl
  · rw [if_neg heq]
    refine ⟨c.req.bufferStart, c.req.bufferEnd, ?_, Or.inr ⟨heq, rfl, rfl⟩⟩
    rw [Conn.cursors, List.append_nil]

/-- `req_flush` fails, is blocked by the socket, or moves the cursors. -/
lemma reqFlush_cases (c : Conn) :
    ((reqFlush c).1 = -2 ∧ (ReqStatus.done.code < c.req.status.code ∨
      c.req.bytesToWrite ≠ 0 ∧ (c.pop.1 = .intr ∨ c.pop.1 = .error))) ∨
    (∃ t, c.req.bytesToWrite ≠ 0 ∧ c.pop.1 = .again ∧ reqFlush c = (-1, c.setTape t)) ∨
    ∃ t es, ∃ s e : ℕ, (c.req.bytesToWrite = 0 ∨ ∃ n, c.pop.1 = .accept n) ∧
      reqFlush c = ((e : ℤ), c.cursors t es s e) := by
  unfold reqFlush
  dsimp only
  by_cases hdone : ReqStatus.done.code < c.req.status.code
  · rw [if_pos hdone]
    exact Or.inl ⟨rfl, Or.inl hdone⟩
  rw [if_neg hdone, ← Request.bytesToWrite]
  by_cases hzero : c.req.bytesToWrite = 0
  · rw [if_pos hzero]
    obtain ⟨s, e, heq, -⟩ := flushDone_cases c
    exact Or.inr (Or.inr ⟨_, _, s, e, Or.inl hzero, heq⟩)
  rw [if_neg hzero]
  rcases hpop : c.pop with ⟨res, d⟩
  obtain ⟨t, rfl⟩ := pop_setTape hpop
  cases res with
  | again => exact Or.inr (Or.inl ⟨t, hzero, rfl, rfl⟩)
  | intr => exact Or.inl ⟨rfl, Or.inr ⟨hzero, Or.inl rfl⟩⟩
  | error => exact Or.inl ⟨rfl, Or.inr ⟨hzero, Or.inr rfl⟩⟩
  | accept n =>
      obtain ⟨s, e, heq, -⟩ := flushDone_cases (((c.setTape t).upd fun r => { r with
        bufferStart := r.bufferStart + min n c.req.bytesToWrite }).emit
        (.flushed (c.req.buffer.slice c.req.bufferStart (min n c.req.bytesToWrite))))
      refine Or.inr (Or.inr ⟨t, [.flushed (c.req.buffer.slice c.req.bufferStart
        (min n c.req.bytesToWrite))], s, e, Or.inr ⟨n, rfl⟩, heq.trans ?_⟩)
      rw [Conn.cursors, List.append_nil]
      rfl

/-- The flush does not stop the visit: the buffer is empty, or the socket takes some of it. -/
def FlushOk (c : Conn) : Prop :=
  c.req.bufferEnd = 0 ∨ c.req.bytesToWrite = 0 ∨ ∃ n, c.pop.1 = .accept n

/-- The flush in front of the switch fails, is blocked by the socket, or moves the
cursors. -/
lemma flushFirst_cases (c : Conn) :
    ((flushFirst c).1 = 0 ∧ ¬FlushOk c) ∨
    (∃ t, c.req.bufferEnd ≠ 0 ∧ c.req.bytesToWrite ≠ 0 ∧ c.pop.1 = .again ∧
      flushFirst c = (-1, c.setTape t)) ∨
    ∃ t es, ∃ s e : ℕ, flushFirst c = (1, c.cursors t es s e) ∧
      (c.req.status.code < ReqStatus.timedOut.code → FlushOk c) ∧
      (c.req.bufferEnd = 0 → s = c.req.bufferStart ∧ e = 0) := by
  unfold flushFirst
  by_cases hbuf : c.req.bufferEnd ≠ 0 ∧ c.req.status.code < ReqStatus.timedOut.code
  swap
  · rw [if_neg hbuf]
    refine Or.inr (Or.inr ⟨c.tape, [], c.req.bufferStart, c.req.bufferEnd, ?_, fun hlive => ?_,
      fun h => ⟨rfl, h⟩⟩)
    · rw [Conn.cursors, List.append_nil]
    · exact Or.inl (not_not.mp fun h => hbuf ⟨h, hlive⟩)
  rw [if_pos hbuf]
  rcases reqFlush_cases c with ⟨h, hwhy⟩ | ⟨t, hsome, hagain, h⟩ | ⟨t, es, s, e, hok, h⟩
  · rcases hres : reqFlush c with ⟨retval, d⟩
    rw [hres] at h
    dsimp only at h ⊢
    rw [if_pos h]
    refine Or.inl ⟨rfl, ?_⟩
    have hle : ¬ReqStatus.done.code < c.req.status.code :=
      not_lt.mpr (Nat.le_of_lt_succ hbuf.2)
    obtain ⟨hsome, hfail⟩ := hwhy.resolve_left hle
    rintro (hzero | hzero | ⟨n, hn⟩)
    · exact hbuf.1 hzero
    · exact hsome hzero
    · rw [hn] at hfail
      rcases hfail with hfail | hfail <;> cases hfail
  · rw [h]
    exact Or.inr (Or.inl ⟨t, hbuf.1, hsome, hagain, rfl⟩)
  · rw [h]
    dsimp only
    rw [if_neg (by omega), if_pos (Int.natCast_nonneg e)]
    exact Or.inr (Or.inr ⟨t, es, s, e, rfl, fun _ => Or.inr hok,
      fun hzero => absurd hzero hbuf.1⟩)

/-- Whether the flush lets the handler run. -/
lemma flushFirst_eq_one_iff {c : Conn} (hs : c.req.status.code < ReqStatus.timedOut.code) :
    (flushFirst c).1 = 1 ↔ FlushOk c := by
  rcases flushFirst_cases c with ⟨h, hnot⟩ | ⟨t, hend, hsome, hagain, h⟩ | ⟨t, es, s, e, h, hok, -⟩
  · rw [h]
    exact iff_of_false (by decide) hnot
  · rw [h]
    refine iff_of_false (by exact (by decide : (-1 : ℤ) ≠ 1)) ?_
    rintro (hzero | hzero | ⟨n, hn⟩)
    · exact hend hzero
    · exact hsome hzero
    · rw [hn] at hagain
      cases hagain
  · rw [h]
    exact iff_of_true rfl (hok hs)

/-- A visit that neither frees the request nor gives it up leaves what the handler has
left, but for `SQUASH_KA` after a `SIGTERM`. -/
lemma visit_of_ret {cfg : Config} {env : Env} {c d : Conn} {retval : ℤ}
    (h : processRequest cfg env { c with tape := env.sock } = (retval, d))
    (hret : retval = 1 ∨ retval = -1) : visit cfg env c = d := by
  rw [visit, h]
  dsimp only
  rw [if_neg (by omega), if_pos hret]

lemma processRequest_of_flush {cfg : Config} {env : Env} {c d : Conn}
    (h : flushFirst c = (1, d)) : processRequest cfg env c =
      ((handleStatus cfg env d).1,
        if env.sigterm then (handleStatus cfg env d).2.squashKa
        else (handleStatus cfg env d).2) := by
  rw [processRequest, h]
  rfl

lemma processRequest_of_blocked {cfg : Config} {env : Env} {c d : Conn}
    (h : flushFirst c = (-1, d)) : processRequest cfg env c =
      (-1, if env.sigterm then d.squashKa else d) := by
  rw [processRequest, h]
  rfl

end Yabwf
