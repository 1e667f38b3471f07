import Yabwf.Transfer
import Yabwf.Visit

/-!
The three ways of sending a file: what `init_get` copies, followed by `process_get`,
`io_shuffle_sendfile`, and `io_shuffle`.

* `Conn.output`: what has left on the socket, followed by what is queued.
* `Service`, `serve`: the visits to a request, up to `free_request`.
* `Sending`, `Sent`: the output is the head and a part of the range, which `ranges` says; or
  the head and the whole range.
* `engines_send_range`: hence what is sent is always the beginning of the range, and all of
  it when `complete_response` is called.
-/

namespace Yabwf

open Memory

/-! ### The output -/

/-- What an event puts on the socket. -/
def Event.onWire : Event → Bytes
  | .flushed bs | .wrote _ _ bs => bs
  | _ => []

/-- What has left on the socket. -/
def onWire (t : List Event) : Bytes := t.flatMap Event.onWire

@[simp] lemma onWire_append (t t' : List Event) : onWire (t ++ t') = onWire t ++ onWire t' :=
  List.flatMap_append

@[simp] lemma onWire_singleton (e : Event) : onWire [e] = e.onWire := by
  simp [onWire]

/-- What has left on the socket, followed by what is queued. -/
def Conn.output (c : Conn) : Bytes := onWire c.trace ++ c.req.pending

/-- The indices of the buffer. -/
structure Buffered (r : Request) : Prop where
  start_le : r.bufferStart ≤ r.bufferEnd
  end_le : r.bufferEnd ≤ bufferSize

namespace Buffered

variable {c : Conn}

lemma append (h : Buffered c.req) (bs : Bytes) (hfit : c.req.bufferEnd + bs.length ≤ bufferSize) :
    Buffered (c.append bs).req ∧ (c.append bs).output = c.output ++ bs := by
  have hle := h.start_le
  have hpending : (c.append bs).req.pending = c.req.pending ++ bs := by
    obtain ⟨n, hn⟩ := Nat.exists_eq_add_of_le hle
    simp only [Conn.append, Conn.emit_req, Conn.upd_req, Request.pending]
    rw [hn, Nat.add_assoc, Nat.add_sub_cancel_left, Nat.add_sub_cancel_left, Mem.slice_store_end]
  refine ⟨⟨hle.trans (Nat.le_add_right _ _), hfit⟩, ?_⟩
  rw [Conn.output, Conn.output, hpending]
  simp [Conn.append, Event.onWire]

/-- The socket takes the front of the buffer. -/
lemma take (h : Buffered c.req) (c' : Conn) {n : ℕ}
    (hn : n ≤ c.req.bufferEnd - c.req.bufferStart)
    (htrace : c'.trace = c.trace ++ [.flushed (c.req.buffer.slice c.req.bufferStart n)])
    (hbuf : c'.req.buffer = c.req.buffer) (hs : c'.req.bufferStart = c.req.bufferStart + n)
    (he : c'.req.bufferEnd = c.req.bufferEnd) :
    Buffered c'.req ∧ c'.output = c.output := by
  have hle := h.start_le
  refine ⟨⟨by omega, he ▸ h.end_le⟩, ?_⟩
  rw [Conn.output, Conn.output, htrace, Request.pending, Request.pending, hbuf, hs, he,
    onWire_append, onWire_singleton, Event.onWire, List.append_assoc, Nat.sub_add_eq,
    ← Mem.slice_append, Nat.add_sub_cancel' hn]

/-- An empty buffer starts over. -/
lemma restart (heq : c.req.bufferStart = c.req.bufferEnd) :
    Buffered c.clearBuffer.req ∧ c.clearBuffer.output = c.output := by
  refine ⟨⟨le_rfl, Nat.zero_le _⟩, ?_⟩
  simp [Conn.output, Conn.clearBuffer, Request.pending, heq, Mem.slice]

lemma flushDone (h : Buffered c.req) :
    Buffered (flushDone c).2.req ∧ (Yabwf.flushDone c).2.output = c.output := by
  rw [Yabwf.flushDone]
  dsimp only
  split_ifs with heq
  · exact restart heq
  · exact ⟨h, rfl⟩

/-- `req_flush` loses nothing unless the socket is broken. -/
lemma reqFlush (h : Buffered c.req) (hret : (reqFlush c).1 ≠ -2) :
    Buffered (Yabwf.reqFlush c).2.req ∧ (Yabwf.reqFlush c).2.output = c.output := by
  have hle := h.start_le
  have hend := h.end_le
  rw [bufferSize] at hend
  have hsize : (c.req.bufferEnd + 2 ^ 32 - c.req.bufferStart) % 2 ^ 32
      = c.req.bufferEnd - c.req.bufferStart := by omega
  unfold Yabwf.reqFlush at hret ⊢
  rw [hsize] at hret ⊢
  dsimp only at hret ⊢
  by_cases hdone : ReqStatus.done.code < c.req.status.code
  · rw [if_pos hdone] at hret
    exact absurd rfl hret
  rw [if_neg hdone] at hret ⊢
  by_cases hzero : c.req.bufferEnd - c.req.bufferStart = 0
  · rw [if_pos hzero]
    exact h.flushDone
  rw [if_neg hzero] at hret ⊢
  rcases hpop : c.pop with ⟨res, d⟩
  obtain ⟨t, rfl⟩ := pop_setTape hpop
  rw [hpop] at hret
  cases res with
  | again => exact ⟨h, rfl⟩
  | intr => exact absurd rfl hret
  | error => exact absurd rfl hret
  | accept n =>
      obtain ⟨hbuf, hout⟩ := h.take (((c.setTape t).upd fun r =>
        { r with bufferStart := r.bufferStart + min n (c.req.bufferEnd - c.req.bufferStart) }).emit
          (.flushed (c.req.buffer.slice c.req.bufferStart
            (min n (c.req.bufferEnd - c.req.bufferStart))))) (min_le_right n _) rfl rfl rfl rfl
      obtain ⟨hbuf', hout'⟩ := hbuf.flushDone
      exact ⟨hbuf', hout'.trans hout⟩

/-- A handler writes past an empty buffer. -/
lemma wrote (h : Buffered c.req) (bs : Bytes) (hnone : c.req.pending = []) :
    Buffered (c.wrote bs).req ∧ (c.wrote bs).output = c.output ++ bs := by
  have hsame : ∀ r : Request, (r.advance bs.length).bufferStart = r.bufferStart ∧
      (r.advance bs.length).bufferEnd = r.bufferEnd ∧
      (r.advance bs.length).buffer = r.buffer := by
    intro r
    rw [Request.advance]
    split <;> exact ⟨rfl, rfl, rfl⟩
  obtain ⟨hs, he, hb⟩ := hsame c.req
  have hpending : (c.wrote bs).req.pending = [] := by
    rw [← hnone]
    simp only [Conn.wrote, Conn.sent, Conn.emit_req, Conn.upd_req, Request.pending, hs, he, hb]
  refine ⟨⟨?_, ?_⟩, ?_⟩
  · simpa [Conn.wrote, Conn.sent, hs, he] using h.start_le
  · simpa [Conn.wrote, Conn.sent, he] using h.end_le
  · rw [Conn.output, Conn.output, hpending, hnone]
    simp [Conn.wrote, Conn.sent, Event.onWire]

end Buffered

/-! ### The visits -/

/-- A request that is served, and whether a visit has ended it. -/
structure Service where
  conn : Conn
  ended : Bool := false

/-- A visit to a request, up to `free_request`. -/
def serve (cfg : Config) (d : Service) (env : Env) : Service :=
  if d.ended then d
  else
    let res := processRequest cfg env { d.conn with tape := env.sock }
    { conn := res.2, ended := decide (res.1 = 0) }

/-- The request behind `init_get`, which has copied what fits. -/
def copied (cfg : Config) (env : Env) (c : Conn) : Service :=
  { conn := (fillBuffer cfg env c).2, ended := decide ((fillBuffer cfg env c).1 = 0) }

/-- `process_get` and `io_shuffle_sendfile` find the header buffer empty. -/
def FlushedFirst (cfg : Config) (d : Service) (env : Env) : Prop :=
  let flushed := flushFirst { d.conn with tape := env.sock }
  d.conn.req.status = .write ∨ (d.conn.req.status = .ioShuffle ∧ cfg.haveSendfile = true) →
    flushed.1 = 1 → flushed.2.req.bufferEnd = 0

/-! ### One range -/

/-- The file is mapped, or open. -/
def Attached (f : Mem) (r : Request) : Prop :=
  (r.status = .write ∧ r.dataMem = some f) ∨ (r.status = .ioShuffle ∧ r.dataFile = f)

/-- The range from `s` to `e` of the file `f` is being sent behind the output `head`, and `k`
bytes of it are out. -/
structure SendingFrom (f : Mem) (s e : ℕ) (head : Bytes) (k : ℕ) (c : Conn) : Prop where
  buffered : Buffered c.req
  method : c.req.method ≠ .head
  single : ¬(c.req.responseStatus = 206 ∧ 1 < c.req.numranges)
  file : Attached f c.req
  left : k < e - s + 1
  ranges : c.req.ranges = [⟨s + k, e⟩]
  output : c.output = head ++ f.slice s k

/-- The range is being sent. -/
def Sending (f : Mem) (s e : ℕ) (head : Bytes) (c : Conn) : Prop :=
  ∃ k, SendingFrom f s e head k c

/-- The range has been sent. -/
structure Sent (f : Mem) (s e : ℕ) (head : Bytes) (c : Conn) : Prop where
  status : c.req.status = .done
  output : c.output = head ++ f.slice s (e - s + 1)

/-- What a handler does with the range. -/
def Sends (f : Mem) (s e : ℕ) (head : Bytes) (res : ℤ × Conn) : Prop :=
  res.2.req.status = .dead ∨ Sending f s e head res.2 ∨ (res.1 = 0 ∧ Sent f s e head res.2)

section

variable {f : Mem} {s e k : ℕ} {head : Bytes} {c : Conn}

namespace SendingFrom

/-- The state is about the buffer, the range and the output. -/
lemma congr (h : SendingFrom f s e head k c) {c' : Conn} (hbuf : Buffered c'.req)
    (hout : c'.output = c.output) (hreq : ∃ bs be bw, c'.req = { c.req with
      bufferStart := bs, bufferEnd := be, bytesWritten := bw }) :
    SendingFrom f s e head k c' := by
  obtain ⟨bs, be, bw, hreq⟩ := hreq
  refine ⟨hbuf, ?_, ?_, ?_, h.left, ?_, hout.trans h.output⟩
  · rw [hreq]
    exact h.method
  · rw [hreq]
    exact h.single
  · rw [hreq]
    exact h.file
  · rw [hreq]
    exact h.ranges

lemma setTape (h : SendingFrom f s e head k c) (t : List WriteResult) :
    SendingFrom f s e head k (c.setTape t) :=
  h.congr h.buffered rfl ⟨_, _, _, rfl⟩

/-- `SQUASH_KA` does not matter. -/
lemma squash (h : SendingFrom f s e head k c) (sigterm : Bool) :
    SendingFrom f s e head k (if sigterm = true then c.squashKa else c) := by
  split_ifs
  · exact ⟨⟨h.buffered.start_le, h.buffered.end_le⟩, h.method, h.single, h.file, h.left,
      h.ranges, h.output⟩
  · exact h

lemma start_eq (h : SendingFrom f s e head k c) : (c.req.ranges.headD ⟨0, 0⟩).start = s + k := by
  rw [h.ranges]
  rfl

/-- Where the range ends. -/
lemma end_eq (h : SendingFrom f s e head k c) (hle : s ≤ e) {n : ℕ} (hn : n = e - s + 1 - k) :
    s + k + n = e + 1 := by
  have hk := h.left
  omega

/-- How much is left. -/
lemma rangeLength_eq (h : SendingFrom f s e head k c) (hle : s ≤ e)
    (hlen : e - s + 1 < 2 ^ 31) : c.req.rangeLength = e - s + 1 - k := by
  have hk := h.left
  rw [Request.rangeLength, h.ranges]
  dsimp only [List.headD_cons]
  omega

/-- `n` more bytes are out; the last ones complete the response. -/
lemma advance (h : SendingFrom f s e head k c) (cfg : Config) (hs : s < 2 ^ 63) (hle : s ≤ e)
    (hlen : e - s + 1 < 2 ^ 31) {n : ℕ} (hn : n ≤ e - s + 1 - k) {d : Conn}
    (hbuf : Buffered d.req) (hout : d.output = c.output ++ f.slice (s + k) n)
    (hreq : ∃ b bs be bw, d.req = { c.req.advance n with
      buffer := b, bufferStart := bs, bufferEnd := be, bytesWritten := bw }) :
    (n < e - s + 1 - k → d.req.rangeLength ≠ 0 ∧ SendingFrom f s e head (k + n) d) ∧
    (n = e - s + 1 - k → d.req.rangeLength = 0 ∧
      (completeResponse cfg d).1 = 0 ∧ Sent f s e head (completeResponse cfg d).2) := by
  have hk := h.left
  obtain ⟨b, bs, be, bw, hreq⟩ := hreq
  have hmod : (s + k + n) % 2 ^ 64 = s + (k + n) := by omega
  rw [Request.advance, h.ranges] at hreq
  dsimp only at hreq
  rw [hmod] at hreq
  have hbytes : d.output = head ++ f.slice s (k + n) := by
    rw [hout, h.output, List.append_assoc, ← Mem.slice_append]
  have hlength : d.req.rangeLength = (e + 2 ^ 64 - (s + (k + n)) + 1) % 2 ^ 64 := by
    rw [hreq]
    rfl
  refine ⟨fun hlt => ⟨by rw [hlength]; omega, ?_⟩, fun hall => ⟨by rw [hlength]; omega, ?_⟩⟩
  · refine ⟨hbuf, ?_, ?_, ?_, by omega, ?_, hbytes⟩
    · rw [hreq]
      exact h.method
    · rw [hreq]
      exact h.single
    · rw [hreq]
      exact h.file
    · rw [hreq]
  · have hsingle : ¬(d.req.responseStatus = 206 ∧ 1 < d.req.numranges) := by
      rw [hreq]
      exact h.single
    have heq : completeResponse cfg d
        = (0, (d.upd fun r => { r with ranges := r.ranges.tail }).setStatus .done) := if_neg hsingle
    have hsum : k + n = e - s + 1 := by omega
    rw [heq]
    refine ⟨rfl, rfl, ?_⟩
    rw [← hsum, ← hbytes]
    rfl

end SendingFrom

/-! ### The handlers -/

lemma Sends.dead {res : ℤ × Conn} (h : res.2.req.status = .dead) : Sends f s e head res := Or.inl h

lemma Sends.of_sending {i : ℤ} {d : Conn} (h : SendingFrom f s e head k d) :
    Sends f s e head (i, d) := Or.inr (Or.inl ⟨k, h⟩)

/-- A handler that has moved `n` bytes goes on, or completes the response when the range is
exhausted. -/
lemma SendingFrom.moves (h : SendingFrom f s e head k c) (cfg : Config) (hs : s < 2 ^ 63)
    (hle : s ≤ e) (hlen : e - s + 1 < 2 ^ 31) {n : ℕ} (hn : n ≤ e - s + 1 - k) {d : Conn}
    (hbuf : Buffered d.req) (hout : d.output = c.output ++ f.slice (s + k) n)
    (hreq : ∃ b bs be bw, d.req = { c.req.advance n with
      buffer := b, bufferStart := bs, bufferEnd := be, bytesWritten := bw }) :
    (d.req.rangeLength = 0 ∧ Sends f s e head (completeResponse cfg d)) ∨
    (d.req.rangeLength ≠ 0 ∧ SendingFrom f s e head (k + n) d) := by
  obtain ⟨hmore, hall⟩ := h.advance cfg hs hle hlen hn hbuf hout hreq
  rcases hn.lt_or_eq with hlt | heq
  · exact Or.inr (hmore hlt)
  · obtain ⟨hzero, hret, hsent⟩ := hall heq
    exact Or.inl ⟨hzero, Or.inr (Or.inr ⟨hret, hsent⟩)⟩

/-- What `init_get` copies. -/
lemma fillBuffer_sends {cfg : Config} {env : Env} (h : SendingFrom f s e head k c)
    (hs : s < 2 ^ 63) (hle : s ≤ e) (hlen : e - s + 1 < 2 ^ 31) (hbus : env.sigbus = false)
    (hmem : c.req.dataMem = none ∨ c.req.dataMem = some f) :
    Sends f s e head (fillBuffer cfg env c) := by
  rw [fillBuffer]
  rcases hmem with hmem | hmem
  · rw [hmem]
    exact Sends.of_sending h
  rw [hmem]
  dsimp only
  by_cases hroom : bufferSize - c.req.bufferEnd ≤ 256
  · rw [if_pos hroom]
    exact Sends.of_sending h
  rw [if_neg hroom, if_neg (by rw [hbus]; exact Bool.false_ne_true)]
  have hlength := h.rangeLength_eq hle hlen
  have hwant : c.req.rangeLength % 2 ^ 32 = e - s + 1 - k := by
    rw [hlength]
    omega
  rw [hwant, h.start_eq]
  have hn : min (bufferSize - c.req.bufferEnd) (e - s + 1 - k) ≤ e - s + 1 - k := min_le_right _ _
  have hfit : min (bufferSize - c.req.bufferEnd) (e - s + 1 - k)
      ≤ bufferSize - c.req.bufferEnd := min_le_left _ _
  generalize min (bufferSize - c.req.bufferEnd) (e - s + 1 - k) = n at hn hfit ⊢
  have hbytes : (f.slice (s + k) n).length = n := Mem.length_slice _ _ _
  have hend := h.buffered.end_le
  obtain ⟨hbuf, hout⟩ := h.buffered.append (f.slice (s + k) n) (by omega)
  have hreq : ∃ b bs be bw, ((c.append (f.slice (s + k) n)).upd fun r =>
      { r.advance n with bytesWritten := r.bytesWritten + n }).req = { c.req.advance n with
        buffer := b, bufferStart := bs, bufferEnd := be, bytesWritten := bw } := by
    simp only [Conn.append, Conn.upd_req, Conn.emit_req, Request.advance, h.ranges]
    exact ⟨_, _, _, _, rfl⟩
  have hbuf' : Buffered ((c.append (f.slice (s + k) n)).upd fun r =>
      { r.advance n with bytesWritten := r.bytesWritten + n }).req := by
    simp only [Conn.append, Conn.upd_req, Conn.emit_req, Request.advance, h.ranges]
    exact ⟨hbuf.start_le, hbuf.end_le⟩
  have hout' : ((c.append (f.slice (s + k) n)).upd fun r =>
      { r.advance n with bytesWritten := r.bytesWritten + n }).output
        = c.output ++ f.slice (s + k) n := by
    rw [← hout]
    simp only [Conn.output, Conn.append, Conn.upd_req, Conn.emit_req, Request.advance, h.ranges]
    rfl
  obtain ⟨hmore, hall⟩ := h.advance cfg hs hle hlen hn hbuf' hout' hreq
  split_ifs with heq
  · obtain ⟨-, hret, hsent⟩ := hall heq
    exact Or.inr (Or.inr ⟨hret, hsent⟩)
  · exact Sends.of_sending (hmore (lt_of_le_of_ne hn heq)).2

/-- `process_get` on a socket that takes something. -/
lemma processGet_accept {cfg : Config} {env : Env} {t : List WriteResult} {n m : ℕ} {bs : Bytes}
    (hmethod : c.req.method ≠ .head) (hbus : env.sigbus = false)
    (hpop : c.pop = (.accept n, c.setTape t))
    (hm : min n (min (c.req.rangeLength % 2 ^ 32) cfg.systemBufsize) = m)
    (hbs : (c.req.dataMem.getD fun _ => 0).slice (c.req.ranges.headD ⟨0, 0⟩).start m = bs) :
    processGet cfg env c =
      if ((c.setTape t).wrote bs).req.rangeLength = 0
      then completeResponse cfg ((c.setTape t).wrote bs) else (1, (c.setTape t).wrote bs) := by
  unfold processGet
  rw [if_neg hmethod]
  dsimp only
  rw [if_neg (by rw [hbus]; exact Bool.false_ne_true), hpop]
  dsimp only
  rw [hm, ← hbs, Conn.wrote, Mem.length_slice]
  rfl

/-- `process_get` behind an empty buffer. -/
lemma processGet_sends {cfg : Config} {env : Env} (h : SendingFrom f s e head k c)
    (hs : s < 2 ^ 63) (hle : s ≤ e) (hlen : e - s + 1 < 2 ^ 31)
    (hmem : c.req.dataMem = some f) (hempty : c.req.bufferEnd = 0) :
    Sends f s e head (processGet cfg env c) := by
  by_cases hbus : env.sigbus = true
  · rw [processGet, if_neg h.method, if_pos hbus]
    exact Sends.dead rfl
  rcases hpop : c.pop with ⟨res, d⟩
  obtain ⟨t, rfl⟩ := pop_setTape hpop
  cases res with
  | again =>
      rw [processGet, if_neg h.method, if_neg hbus, hpop]
      exact Sends.of_sending (h.setTape t)
  | intr =>
      rw [processGet, if_neg h.method, if_neg hbus, hpop]
      exact Sends.dead rfl
  | error =>
      rw [processGet, if_neg h.method, if_neg hbus, hpop]
      exact Sends.dead rfl
  | accept n =>
      have hbs : (c.req.dataMem.getD fun _ => 0).slice (c.req.ranges.headD ⟨0, 0⟩).start
          (min n (min (c.req.rangeLength % 2 ^ 32) cfg.systemBufsize))
          = f.slice (s + k) (min n (min (c.req.rangeLength % 2 ^ 32) cfg.systemBufsize)) := by
        rw [hmem, h.start_eq]
        rfl
      rw [processGet_accept h.method (Bool.not_eq_true _ ▸ hbus) hpop rfl hbs]
      have hn : min n (min (c.req.rangeLength % 2 ^ 32) cfg.systemBufsize) ≤ e - s + 1 - k := by
        rw [h.rangeLength_eq hle hlen]
        exact (min_le_right _ _).trans ((min_le_left _ _).trans (Nat.mod_le _ _))
      generalize min n (min (c.req.rangeLength % 2 ^ 32) cfg.systemBufsize) = n at hn ⊢
      have hstart : (c.setTape t).req.bufferEnd = 0 := hempty
      obtain ⟨hbuf, hout⟩ := (h.setTape t).buffered.wrote (f.slice (s + k) n)
        (pending_eq_nil hstart)
      have hreq : ∃ b bs be bw, ((c.setTape t).wrote (f.slice (s + k) n)).req
          = { (c.setTape t).req.advance n with
            buffer := b, bufferStart := bs, bufferEnd := be, bytesWritten := bw } := by
        simp only [Conn.wrote, Conn.sent, Conn.setTape, Conn.upd_req, Conn.emit_req,
          Mem.length_slice, Request.advance, h.ranges]
        exact ⟨_, _, _, _, rfl⟩
      rcases (h.setTape t).moves cfg hs hle hlen hn hbuf hout hreq with
        ⟨hzero, hend⟩ | ⟨hmore, hend⟩
      · rw [if_pos hzero]
        exact hend
      · rw [if_neg hmore]
        exact Sends.of_sending hend

/-- What `io_shuffle_sendfile` does when it has not failed. -/
def sendfileDone (cfg : Config) (c : Conn) : ℤ × Conn :=
  if ((c.req.ranges.headD ⟨0, 0⟩).stop + 1) % 2 ^ 64 ≤ (c.req.ranges.headD ⟨0, 0⟩).start
  then completeResponse cfg c else (1, c)

lemma sendfileDone_of_past {cfg : Config}
    (h : ((c.req.ranges.headD ⟨0, 0⟩).stop + 1) % 2 ^ 64 ≤ (c.req.ranges.headD ⟨0, 0⟩).start) :
    sendfileDone cfg c = completeResponse cfg c := if_pos h

/-- `io_shuffle_sendfile` on a socket that takes something. -/
lemma ioShuffleSendfile_accept {cfg : Config} {t : List WriteResult} {n m : ℕ} {bs : Bytes}
    (hmethod : c.req.method ≠ .head) (hzero : min c.req.rangeLength cfg.systemBufsize ≠ 0)
    (hneg : ¬2 ^ 63 ≤ (c.req.ranges.headD ⟨0, 0⟩).start)
    (hpop : popRestart c.tape = (.accept n, t))
    (hm : min n (min c.req.rangeLength cfg.systemBufsize) = m) (hsome : m ≠ 0)
    (hbs : c.req.dataFile.slice (c.req.ranges.headD ⟨0, 0⟩).start m = bs) :
    ioShuffleSendfile cfg c = sendfileDone cfg ((c.setTape t).wrote bs) := by
  unfold ioShuffleSendfile
  rw [if_neg hmethod]
  dsimp only
  rw [if_neg hzero, if_neg hneg, hpop]
  dsimp only
  rw [hm, if_neg hsome, ← hbs, Conn.wrote, Mem.length_slice]
  rfl

/-- `io_shuffle_sendfile` on a socket that takes nothing. -/
lemma ioShuffleSendfile_stops {cfg : Config} {res : WriteResult} {t : List WriteResult}
    (hmethod : c.req.method ≠ .head) (hzero : min c.req.rangeLength cfg.systemBufsize ≠ 0)
    (hneg : ¬2 ^ 63 ≤ (c.req.ranges.headD ⟨0, 0⟩).start) (hpop : popRestart c.tape = (res, t))
    (hstops : ∀ n, res = .accept n → min n (min c.req.rangeLength cfg.systemBufsize) = 0) :
    ioShuffleSendfile cfg c = (-1, c.setTape t) ∨
      ioShuffleSendfile cfg c = (0, (c.setTape t).die) := by
  unfold ioShuffleSendfile
  rw [if_neg hmethod]
  dsimp only
  rw [if_neg hzero, if_neg hneg, hpop]
  cases res with
  | again => exact Or.inl rfl
  | intr => exact Or.inr rfl
  | error => exact Or.inr rfl
  | accept n =>
      dsimp only
      rw [if_pos (hstops n rfl)]
      exact Or.inl rfl

/-- The response is completed when nothing is left of the range. -/
lemma SendingFrom.sendfileDone_eq (h : SendingFrom f s e head k c) (cfg : Config)
    (hs : s < 2 ^ 63) (hle : s ≤ e) (hlen : e - s + 1 < 2 ^ 31) :
    sendfileDone cfg c = (1, c) := by
  have hk := h.left
  refine if_neg ?_
  rw [h.ranges]
  dsimp only [List.headD_cons]
  omega

/-- `io_shuffle_sendfile` behind an empty buffer. -/
lemma ioShuffleSendfile_sends {cfg : Config} (h : SendingFrom f s e head k c)
    (hs : s < 2 ^ 63) (hle : s ≤ e) (hlen : e - s + 1 < 2 ^ 31) (hfile : c.req.dataFile = f)
    (hempty : c.req.bufferEnd = 0) : Sends f s e head (ioShuffleSendfile cfg c) := by
  by_cases hzero : min c.req.rangeLength cfg.systemBufsize = 0
  · have heq : ioShuffleSendfile cfg c = sendfileDone cfg c := by
      unfold ioShuffleSendfile
      rw [if_neg h.method]
      dsimp only
      rw [if_pos hzero]
      rfl
    rw [heq, h.sendfileDone_eq cfg hs hle hlen]
    exact Sends.of_sending h
  by_cases hneg : 2 ^ 63 ≤ (c.req.ranges.headD ⟨0, 0⟩).start
  · unfold ioShuffleSendfile
    rw [if_neg h.method]
    dsimp only
    rw [if_neg hzero, if_pos hneg]
    exact Sends.dead rfl
  rcases hpop : popRestart c.tape with ⟨res, t⟩
  by_cases hstops : ∀ n, res = .accept n → min n (min c.req.rangeLength cfg.systemBufsize) = 0
  · rcases ioShuffleSendfile_stops h.method hzero hneg hpop hstops with heq | heq
    · rw [heq]
      exact Sends.of_sending (h.setTape t)
    · rw [heq]
      exact Sends.dead rfl
  push Not at hstops
  obtain ⟨n, rfl, hnone⟩ := hstops
  have hbs : c.req.dataFile.slice (c.req.ranges.headD ⟨0, 0⟩).start
      (min n (min c.req.rangeLength cfg.systemBufsize))
      = f.slice (s + k) (min n (min c.req.rangeLength cfg.systemBufsize)) := by
    rw [hfile, h.start_eq]
  rw [ioShuffleSendfile_accept h.method hzero hneg hpop rfl hnone hbs]
  have hn : min n (min c.req.rangeLength cfg.systemBufsize) ≤ e - s + 1 - k := by
    rw [h.rangeLength_eq hle hlen]
    exact (min_le_right _ _).trans (min_le_left _ _)
  generalize min n (min c.req.rangeLength cfg.systemBufsize) = n at hn ⊢
  have hstart : (c.setTape t).req.bufferEnd = 0 := hempty
  obtain ⟨hbuf, hout⟩ := (h.setTape t).buffered.wrote (f.slice (s + k) n)
    (pending_eq_nil hstart)
  have hreq : ∃ b bs be bw, ((c.setTape t).wrote (f.slice (s + k) n)).req
      = { (c.setTape t).req.advance n with
        buffer := b, bufferStart := bs, bufferEnd := be, bytesWritten := bw } := by
    simp only [Conn.wrote, Conn.sent, Conn.setTape, Conn.upd_req, Conn.emit_req,
      Mem.length_slice, Request.advance, h.ranges]
    exact ⟨_, _, _, _, rfl⟩
  obtain ⟨hmore, hall⟩ := (h.setTape t).advance cfg hs hle hlen hn hbuf hout hreq
  rcases hn.lt_or_eq with hlt | hlast
  · rw [(hmore hlt).2.sendfileDone_eq cfg hs hle hlen]
    exact Sends.of_sending (hmore hlt).2
  · obtain ⟨-, hret, hsent⟩ := hall hlast
    have hranges : ((c.setTape t).wrote (f.slice (s + k) n)).req.ranges
        = [⟨(s + k + n) % 2 ^ 64, e⟩] := by
      simp only [Conn.wrote, Conn.sent, Conn.setTape, Conn.upd_req, Conn.emit_req,
        Mem.length_slice, Request.advance, h.ranges]
    have hsum : s + k + n = e + 1 := h.end_eq hle hlast
    rw [sendfileDone_of_past (by rw [hranges, hsum]; rfl)]
    exact Or.inr (Or.inr ⟨hret, hsent⟩)

/-- The second half of `io_shuffle` sends from the front of the buffer. -/
lemma ioShuffleWrite_sends (h : SendingFrom f s e head k c) :
    Sends f s e head (ioShuffleWrite c) := by
  have hclear : ∀ d : Conn, SendingFrom f s e head k d →
      d.req.bufferStart = d.req.bufferEnd → SendingFrom f s e head k d.clearBuffer := by
    intro d hd hempty
    obtain ⟨hbuf, hout⟩ := Buffered.restart (c := d) hempty
    exact hd.congr hbuf hout ⟨_, _, _, rfl⟩
  have hdrain : ∀ (t : List WriteResult) (n : ℕ), n ≤ c.req.bufferEnd - c.req.bufferStart →
      SendingFrom f s e head k ((c.setTape t).drained n) := by
    intro t n hn
    obtain ⟨hbuf, hout⟩ := h.buffered.take ((c.setTape t).drained n) hn rfl rfl rfl rfl
    exact h.congr hbuf hout ⟨_, _, _, rfl⟩
  have hle := h.buffered.start_le
  rcases ioShuffleWrite_cases c with
    ⟨hzero, ⟨-, heq⟩ | heq⟩ | ⟨t, -, -, heq⟩ | ⟨t, heq⟩ | ⟨t, n, hn, ⟨hall, heq⟩ | heq⟩
  · rw [heq]
    exact Sends.of_sending h
  · rw [heq]
    exact Sends.of_sending (hclear c h (by omega))
  · rw [heq]
    exact Sends.of_sending (h.setTape t)
  · rw [heq]
    exact Sends.dead rfl
  · rw [heq]
    refine Sends.of_sending (hclear _ (hdrain t n hn) ?_)
    change c.req.bufferStart + n = c.req.bufferEnd
    omega
  · rw [heq]
    exact Sends.of_sending (hdrain t n hn)

/-- `io_shuffle` reads behind what is queued and sends from the front. -/
lemma ioShuffle_sends {cfg : Config} {env : Env} (h : SendingFrom f s e head k c)
    (hs : s < 2 ^ 63) (hle : s ≤ e) (hlen : e - s + 1 < 2 ^ 31) (hfile : c.req.dataFile = f) :
    Sends f s e head (ioShuffle cfg env c) := by
  have hlength := h.rangeLength_eq hle hlen
  unfold ioShuffle
  rw [if_neg h.method]
  dsimp only
  by_cases hread : 0 < min ((bufferSize : ℤ) - c.req.bufferEnd - 256)
      (toSigned 32 c.req.rangeLength) ∧ c.req.dataFd ≠ 0
  swap
  · rw [if_neg hread]
    exact ioShuffleWrite_sends h
  rw [if_pos hread]
  by_cases hseek : (!env.lseekOk) = true
  · rw [if_pos hseek]
    exact Sends.dead rfl
  rw [if_neg hseek]
  cases hres : env.fileRead with
  | again =>
      dsimp only
      split_ifs
      · exact Sends.of_sending h
      · exact ioShuffleWrite_sends h
  | intr =>
      dsimp only
      split_ifs
      · exact Sends.of_sending h
      · exact ioShuffleWrite_sends h
  | error => exact Sends.dead rfl
  | accept n =>
      dsimp only
      rw [h.start_eq, hfile]
      have hn : min n (min ((bufferSize : ℤ) - c.req.bufferEnd - 256)
          (toSigned 32 c.req.rangeLength)).toNat ≤ e - s + 1 - k := by
        rw [← hlength]
        refine (min_le_right _ _).trans (le_trans ?_ (toSigned_toNat_le c.req.rangeLength))
        exact Int.toNat_le_toNat (min_le_right _ _)
      have hfit : min n (min ((bufferSize : ℤ) - c.req.bufferEnd - 256)
          (toSigned 32 c.req.rangeLength)).toNat ≤ bufferSize - c.req.bufferEnd := by
        refine (min_le_right _ _).trans ?_
        have hroom : (min ((bufferSize : ℤ) - c.req.bufferEnd - 256)
            (toSigned 32 c.req.rangeLength)).toNat
              ≤ ((bufferSize : ℤ) - c.req.bufferEnd - 256).toNat :=
          Int.toNat_le_toNat (min_le_left _ _)
        omega
      generalize min n (min ((bufferSize : ℤ) - c.req.bufferEnd - 256)
        (toSigned 32 c.req.rangeLength)).toNat = n at hn hfit ⊢
      by_cases hnone : n = 0
      · rw [if_pos hnone]
        have hclosed : SendingFrom f s e head k c.closeData := by
          refine ⟨⟨h.buffered.start_le, h.buffered.end_le⟩, h.method, h.single, h.file, h.left,
            h.ranges, ?_⟩
          rw [← h.output]
          simp [Conn.output, Conn.closeData, Event.onWire, Request.pending]
        exact ioShuffleWrite_sends hclosed
      rw [if_neg hnone]
      have hshuffled : ((c.append (f.slice (s + k) n)).upd fun r => r.advance n)
          = c.shuffled (f.slice (s + k) n) := by
        rw [Conn.shuffled, Mem.length_slice]
      rw [hshuffled]
      have hend := h.buffered.end_le
      have hbytes : (f.slice (s + k) n).length = n := Mem.length_slice _ _ _
      obtain ⟨hbuf, hout⟩ := h.buffered.append (f.slice (s + k) n) (by omega)
      have hreq : ∃ b bs be bw, (c.shuffled (f.slice (s + k) n)).req = { c.req.advance n with
          buffer := b, bufferStart := bs, bufferEnd := be, bytesWritten := bw } := by
        simp only [Conn.shuffled, Conn.append, Conn.upd_req, Conn.emit_req, Request.advance,
          h.ranges, Mem.length_slice]
        exact ⟨_, _, _, _, rfl⟩
      have hbuf' : Buffered (c.shuffled (f.slice (s + k) n)).req := by
        simp only [Conn.shuffled, Conn.append, Conn.upd_req, Conn.emit_req, Request.advance,
          h.ranges]
        exact ⟨hbuf.start_le, hbuf.end_le⟩
      have hout' : (c.shuffled (f.slice (s + k) n)).output = c.output ++ f.slice (s + k) n := by
        rw [← hout]
        simp only [Conn.output, Conn.shuffled, Conn.append, Conn.upd_req, Conn.emit_req,
          Request.advance, h.ranges]
        rfl
      rcases h.moves cfg hs hle hlen hn hbuf' hout' hreq with ⟨hzero, hall⟩ | ⟨hmore, hstate⟩
      · rw [if_pos hzero]
        exact hall
      · rw [if_neg hmore]
        exact ioShuffleWrite_sends hstate

/-- A handler that has the buffer to itself. -/
lemma handleStatus_sends {cfg : Config} (env : Env) (h : SendingFrom f s e head k c)
    (hs : s < 2 ^ 63) (hle : s ≤ e) (hlen : e - s + 1 < 2 ^ 31)
    (hempty : c.req.status = .write ∨ (c.req.status = .ioShuffle ∧ cfg.haveSendfile = true) →
      c.req.bufferEnd = 0) : Sends f s e head (handleStatus cfg env c) := by
  rcases h.file with ⟨hstatus, hmem⟩ | ⟨hstatus, hfile⟩
  · rw [handleStatus, hstatus]
    exact processGet_sends h hs hle hlen hmem (hempty (Or.inl hstatus))
  · rw [handleStatus, hstatus]
    dsimp only
    by_cases hsend : cfg.haveSendfile = true
    · rw [if_pos hsend]
      exact ioShuffleSendfile_sends h hs hle hlen hfile (hempty (Or.inr ⟨hstatus, hsend⟩))
    · rw [if_neg hsend]
      exact ioShuffle_sends h hs hle hlen hfile

/-- The flush loses nothing. -/
lemma flushFirst_sends (h : SendingFrom f s e head k c) :
    (flushFirst c).2.req.status = .dead ∨ SendingFrom f s e head k (flushFirst c).2 := by
  rw [flushFirst]
  split_ifs
  · have hkeep := h.buffered.reqFlush
    rcases reqFlush_cases c with ⟨hfail, -⟩ | ⟨t, -, -, heq⟩ | ⟨t, es, bs, be, -, heq⟩
    · generalize reqFlush c = res at hfail
      obtain ⟨retval, d⟩ := res
      dsimp only at hfail ⊢
      rw [if_pos hfail]
      exact Or.inl rfl
    · rw [heq]
      exact Or.inr (h.setTape t)
    · rw [heq] at hkeep ⊢
      obtain ⟨hbuf, hout⟩ := hkeep (by dsimp only; omega)
      dsimp only
      rw [if_neg (by omega), if_pos (Int.natCast_nonneg be)]
      exact Or.inr (h.congr hbuf hout ⟨_, _, _, rfl⟩)
  · exact Or.inr h

end

/-- What holds of a request that is served: it has failed, its range is being sent, or the
range has been sent. -/
def Serving (f : Mem) (s e : ℕ) (head : Bytes) (d : Service) : Prop :=
  d.conn.req.status = .dead ∨ Sending f s e head d.conn ∨
    (d.ended = true ∧ Sent f s e head d.conn)

lemma Sends.serving {f : Mem} {s e : ℕ} {head : Bytes} {res : ℤ × Conn}
    (h : Sends f s e head res) :
    Serving f s e head { conn := res.2, ended := decide (res.1 = 0) } := by
  rcases h with hdead | hsending | ⟨hret, hsent⟩
  · exact Or.inl hdead
  · exact Or.inr (Or.inl hsending)
  · exact Or.inr (Or.inr ⟨decide_eq_true hret, hsent⟩)

section

variable {f : Mem} {s e : ℕ} {head : Bytes} {c : Conn}

lemma Sends.squash {i : ℤ} (h : Sends f s e head (i, c)) (sigterm : Bool) :
    Sends f s e head (i, if sigterm = true then c.squashKa else c) := by
  rcases h with hdead | ⟨k, hsending⟩ | ⟨hret, hsent⟩
  · refine Or.inl ?_
    split_ifs <;> exact hdead
  · exact Sends.of_sending (hsending.squash sigterm)
  · refine Or.inr (Or.inr ⟨hret, ?_⟩)
    split_ifs
    · exact ⟨hsent.status, hsent.output⟩
    · exact hsent

/-- A request that has failed stays so. -/
lemma processRequest_of_dead {cfg : Config} {env : Env} (h : c.req.status = .dead) :
    (processRequest cfg env c).2.req.status = .dead := by
  have hflush : flushFirst c = (1, c) := by
    refine if_neg ?_
    rw [h]
    exact fun hlt => absurd hlt.2 (by simp [ReqStatus.code])
  have hhandle : (handleStatus cfg env c).2.req.status = .dead := by
    rw [handleStatus, h]
    exact h
  rw [processRequest_of_flush hflush]
  dsimp only
  split_ifs
  · exact hhandle
  · exact hhandle

/-- A visit that finds the buffer as the handler needs it. -/
lemma processRequest_sends {cfg : Config} {env : Env} (h : Sending f s e head c)
    (hs : s < 2 ^ 63) (hle : s ≤ e) (hlen : e - s + 1 < 2 ^ 31)
    (hempty : c.req.status = .write ∨ (c.req.status = .ioShuffle ∧ cfg.haveSendfile = true) →
      (flushFirst c).1 = 1 → (flushFirst c).2.req.bufferEnd = 0) :
    Sends f s e head (processRequest cfg env c) := by
  obtain ⟨k, h⟩ := h
  rcases flushFirst_sends h with hdead | hflushed
  · have hret : (flushFirst c).1 ≠ 1 := by
      intro hone
      rcases flushFirst_cases c with ⟨hzero, -⟩ | ⟨t, -, -, -, heq⟩ | ⟨t, es, bs, be, heq, -, -⟩
      · rw [hone] at hzero
        exact one_ne_zero hzero
      · rw [heq] at hone
        exact absurd hone (by simp)
      · rw [heq] at hdead
        rcases h.file with ⟨hstatus, -⟩ | ⟨hstatus, -⟩ <;>
        · rw [Conn.cursors, hstatus] at hdead
          cases hdead
    rw [processRequest, if_neg hret]
    have hsends : Sends f s e head ((flushFirst c).1, (flushFirst c).2) := Sends.dead hdead
    exact hsends.squash env.sigterm
  · by_cases hret : (flushFirst c).1 = 1
    · rw [processRequest, if_pos hret]
      have hsame : (flushFirst c).2.req.status = c.req.status := by
        rcases flushFirst_cases c with ⟨hzero, -⟩ | ⟨t, -, -, -, heq⟩ | ⟨t, es, bs, be, heq, -, -⟩
        · rw [hret] at hzero
          exact absurd hzero one_ne_zero
        · rw [heq]
          rfl
        · rw [heq]
          rfl
      have hhandle := handleStatus_sends env hflushed hs hle hlen
        (fun hdirect => hempty (hsame ▸ hdirect) hret)
      exact Sends.squash (i := (handleStatus cfg env (flushFirst c).2).1) hhandle env.sigterm
    · rw [processRequest, if_neg hret]
      exact (Sends.of_sending (i := (flushFirst c).1) hflushed).squash env.sigterm

end

/-- One visit. -/
lemma serve_serving {cfg : Config} {env : Env} {f : Mem} {s e : ℕ} {head : Bytes} {d : Service}
    (hs : s < 2 ^ 63) (hle : s ≤ e) (hlen : e - s + 1 < 2 ^ 31) (h : Serving f s e head d)
    (hempty : FlushedFirst cfg d env) : Serving f s e head (serve cfg d env) := by
  rw [serve]
  split_ifs with hend
  · exact h
  · rcases h with hdead | ⟨k, hsending⟩ | ⟨hended, -⟩
    · exact Or.inl (processRequest_of_dead (c := { d.conn with tape := env.sock }) hdead)
    · have hstart : Sending f s e head { d.conn with tape := env.sock } :=
        ⟨k, hsending.setTape env.sock⟩
      exact (processRequest_sends hstart hs hle hlen hempty).serving
    · exact absurd hended hend

/-- **The engines send the same bytes**: whenever the head of a response with one range has
been queued for a request whose range is `s` to `e`, then after `init_get` has copied what fits
and after any visits in which `process_get` and `io_shuffle_sendfile` find the buffer empty,
what has left on the socket or is queued behind the head is the beginning of the bytes of the
file from `s` to `e`, unless the request has failed; and it is all of them when
`complete_response` has been called. -/
theorem engines_send_range {cfg : Config} {env : Env} {f : Mem} {filesize s e : ℕ} {range : Range}
    {c : Conn} {envs : List Env} {d : Service} (hfixup : rangeFixup filesize range = some ⟨s, e⟩)
    (hlen : e - s + 1 < 2 ^ 31) (hranges : c.req.ranges = [⟨s, e⟩])
    (hmethod : c.req.method = .get)
    (hsingle : c.req.responseStatus = 200 ∨ (c.req.responseStatus = 206 ∧ c.req.numranges = 1))
    (hfile : (c.req.status = .write ∧ c.req.dataMem = some f) ∨
      (c.req.status = .ioShuffle ∧ c.req.dataMem = none ∧ c.req.dataFile = f))
    (hbuf : Buffered c.req) (hbus : env.sigbus = false)
    (hempty : Run.Allowed (serve cfg) (FlushedFirst cfg) (copied cfg env c) envs)
    (hrun : Run.runs (serve cfg) (copied cfg env c) envs = d)
    (hlive : d.conn.req.status ≠ .dead) :
    ∃ body, d.conn.output = c.output ++ body ∧ body <+: f.slice s (e - s + 1) ∧
      (d.conn.req.status = .done → body = f.slice s (e - s + 1)) := by
  have hbounds : s < 2 ^ 63 ∧ s ≤ e := by
    rw [rangeFixup] at hfixup
    generalize (if range.start = ulongMax then _ else range.start : ℕ) = start at hfixup
    split_ifs at hfixup with hbad <;> cases hfixup <;> omega
  obtain ⟨hs, hle⟩ := hbounds
  have hstart : SendingFrom f s e c.output 0 c := by
    refine ⟨hbuf, by rw [hmethod]; simp, ?_, ?_, Nat.succ_pos _, hranges, by simp⟩
    · rcases hsingle with hone | ⟨-, hone⟩ <;> simp [hone]
    · exact hfile.imp id fun h => ⟨h.1, h.2.2⟩
  have hmem : c.req.dataMem = none ∨ c.req.dataMem = some f :=
    hfile.elim (fun h => Or.inr h.2) fun h => Or.inl h.2.1
  have hcopied : Serving f s e c.output (copied cfg env c) :=
    (fillBuffer_sends hstart hs hle hlen hbus hmem).serving
  have hstep : ∀ (d : Service) (env : Env), Serving f s e c.output d → FlushedFirst cfg d env →
      Serving f s e c.output (serve cfg d env) := fun d env => serve_serving hs hle hlen
  have hall : Serving f s e c.output (Run.runs (serve cfg) (copied cfg env c) envs) :=
    Run.runs_invariant hstep envs _ hcopied hempty
  rw [hrun] at hall
  rcases hall with hdead | ⟨k, hsending⟩ | ⟨-, hsent⟩
  · exact absurd hdead hlive
  · refine ⟨f.slice s k, hsending.output, ?_, fun hdone => ?_⟩
    · rw [← Mem.slice_take f s (e - s + 1) k hsending.left.le]
      exact List.take_prefix _ _
    · rcases hsending.file with ⟨hstatus, -⟩ | ⟨hstatus, -⟩ <;>
      · rw [hstatus] at hdone
        cases hdone
  · exact ⟨_, hsent.output, List.prefix_refl _, fun _ => rfl⟩

/-! ### A file that does not fit behind its head -/

/-- The file in which every byte is its index. -/
def countingFile : Mem := fun i => UInt8.ofNat i

/-- A request whose head has left, with room for 266 bytes behind it. -/
def countingRequest : Conn where
  req := { fd := 4, method := .get, status := .write, responseStatus := 200
           ranges := [⟨0, 269⟩], dataMem := some countingFile
           bufferStart := 3830, bufferEnd := 3830 }

/-- The client takes the copied piece, one more byte and the rest. -/
def countingVisits : List Env :=
  [{ sock := [.accept 266, .accept 1] }, { sock := [.again] }, { sock := [.accept 9] }]

/-- Such a file is sent from its first byte to its last. -/
theorem engines_send_range_counting :
    (Run.runs (serve {}) (copied {} {} countingRequest) countingVisits).conn.req.status = .done ∧
      ∃ body, (Run.runs (serve {}) (copied {} {} countingRequest) countingVisits).conn.output
        = countingRequest.output ++ body ∧ body = countingFile.slice 0 270 := by
  have hdone : (Run.runs (serve {}) (copied {} {} countingRequest)
      countingVisits).conn.req.status = .done := by decide +kernel
  have hfixup : rangeFixup 270 ⟨0, ulongMax⟩ = some ⟨0, 269⟩ := by decide
  have hempty : Run.Allowed (serve {}) (FlushedFirst {}) (copied {} {} countingRequest)
      countingVisits := by
    refine ⟨fun _ _ => ?_, fun _ _ => ?_, fun _ _ => ?_, trivial⟩ <;> decide +kernel
  obtain ⟨body, hout, -, hall⟩ := engines_send_range hfixup (by decide) rfl rfl (Or.inl rfl)
    (Or.inl ⟨rfl, rfl⟩) ⟨le_rfl, by decide⟩ rfl hempty rfl (by rw [hdone]; decide)
  exact ⟨hdone, body, hout, hall hdone⟩

end Yabwf
