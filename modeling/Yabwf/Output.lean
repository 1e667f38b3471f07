import Yabwf.Lib.Fifo
import Yabwf.Pipe

/-!
What the functions that only produce output can do.

* `wireOps`, `Ordered`: the record as operations on one outlet, and the invariant that
  ties the buffer to it: what the buffer has yet to send is what was meant to leave and
  has not left.
* `Outputs`: a function touches the buffer, the status, the keep-alive state, the code
  of the response and the ranges, ends in the status it began with or in `DONE` or
  later, records nothing but buffering, and keeps `Ordered`.
* `sendRPage_outputs` and the other lemmas `…_outputs`: the functions of `buffer.c`,
  `response.c` and `range.c` are such functions.
-/

namespace Yabwf

open Memory Fifo

/-! ### The order on the wire -/

/-- An event as operations on the outlet. -/
def wireOp : Event → List (Op UInt8)
  | .buffered bs => [.put bs]
  | .flushed bs => [.send bs]
  | .wrote _ _ bs => [.direct bs]
  | .dropped | .freed _ _ _ => [.clear]
  | _ => []

/-- The record as operations on the outlet. -/
def wireOps (t : List Event) : List (Op UInt8) := t.flatMap wireOp

lemma wireOps_append (t t' : List Event) : wireOps (t ++ t') = wireOps t ++ wireOps t' :=
  List.flatMap_append

lemma wireOps_concat (t : List Event) (e : Event) : wireOps (t ++ [e]) = wireOps t ++ wireOp e := by
  rw [wireOps_append]
  simp [wireOps]

/-- The record is in order, and the buffer holds what has yet to leave. -/
structure Ordered (c : Conn) : Prop where
  chan : ∃ ch : Chan UInt8, Chan.run {} (wireOps c.trace) = some ch ∧ ch.queue = c.req.pending
  start_le : c.req.bufferStart ≤ c.req.bufferEnd
  end_le : c.req.bufferEnd ≤ bufferSize
  clear : ∀ s e bs, Event.wrote s e bs ∈ c.trace → ¬s < e

namespace Ordered

variable {c : Conn}

/-- The invariant is about the record and the buffer alone. -/
lemma congr {c' : Conn} (h : Ordered c) (htrace : c'.trace = c.trace)
    (hbuf : c'.req.buffer = c.req.buffer) (hs : c'.req.bufferStart = c.req.bufferStart)
    (he : c'.req.bufferEnd = c.req.bufferEnd) : Ordered c' := by
  have hpending : c'.req.pending = c.req.pending := by
    rw [Request.pending, Request.pending, hbuf, hs, he]
  refine ⟨?_, ?_, ?_, ?_⟩
  · rw [htrace, hpending]
    exact h.chan
  · rw [hs, he]
    exact h.start_le
  · rw [he]
    exact h.end_le
  · rw [htrace]
    exact h.clear

/-- Recording an event that is none of the buffer's. -/
lemma emit (h : Ordered c) {e : Event} (he : wireOp e = []) : Ordered (c.emit e) := by
  obtain ⟨ch, hrun, hq⟩ := h.chan
  refine ⟨⟨ch, ?_, hq⟩, h.start_le, h.end_le, fun s e' bs hm => ?_⟩
  · rw [Conn.emit_trace, wireOps_concat, he, List.append_nil, hrun]
  · rw [Conn.emit_trace, List.mem_append, List.mem_singleton] at hm
    rcases hm with hm | rfl
    · exact h.clear s e' bs hm
    · cases he

/-- Appending what fits. -/
lemma append (h : Ordered c) {bs : Bytes} (hfit : c.req.bufferEnd + bs.length ≤ bufferSize) :
    Ordered (c.append bs) := by
  obtain ⟨ch, hrun, hq⟩ := h.chan
  have hle := h.start_le
  refine ⟨⟨{ ch with queue := ch.queue ++ bs }, ?_, ?_⟩, ?_, hfit, fun s e bs' hm => ?_⟩
  · rw [Conn.append, Conn.emit_trace, wireOps_concat, Conn.upd_trace,
      Chan.run_append_of_eq_some hrun]
    rfl
  · -- the bytes are stored right behind the ones that are pending
    obtain ⟨n, hn⟩ := Nat.exists_eq_add_of_le hle
    simp only [Conn.append, Conn.emit_req, Conn.upd_req, Request.pending] at hq ⊢
    rw [hq, hn, Nat.add_assoc, Nat.add_sub_cancel_left, Nat.add_sub_cancel_left,
      Mem.slice_store_end]
  · simp only [Conn.append, Conn.emit_req, Conn.upd_req]
    omega
  · rw [Conn.append, Conn.emit_trace, List.mem_append, List.mem_singleton] at hm
    rcases hm with hm | hm
    · exact h.clear s e bs' hm
    · cases hm

/-- The socket takes the front of the buffer. -/
lemma flush (h : Ordered c) {n : ℕ} (hn : n ≤ c.req.bufferEnd - c.req.bufferStart) :
    Ordered ((c.upd fun r => { r with bufferStart := r.bufferStart + n }).emit
      (.flushed (c.req.buffer.slice c.req.bufferStart n))) := by
  obtain ⟨ch, hrun, hq⟩ := h.chan
  have hle := h.start_le
  have hfront : c.req.buffer.slice c.req.bufferStart n = ch.queue.take n := by
    rw [hq, Request.pending, Mem.slice_take _ _ _ _ hn]
  refine ⟨⟨⟨ch.sent ++ ch.queue.take n, ch.queue.drop n⟩, ?_, ?_⟩, ?_, h.end_le,
    fun s e bs hm => ?_⟩
  · rw [Conn.emit_trace, wireOps_concat, Conn.upd_trace, Chan.run_append_of_eq_some hrun,
      wireOp, hfront, Chan.run, Chan.step, if_pos (List.take_prefix _ _)]
    have hlen : (ch.queue.take n).length = n := by
      rw [List.length_take_of_le]
      rwa [hq, Request.pending, Mem.length_slice]
    rw [hlen]
    rfl
  · simp only [Conn.emit_req, Conn.upd_req, Request.pending] at hq ⊢
    rw [hq, Mem.slice_drop _ _ _ _ hn]
    congr 1
    omega
  · simp only [Conn.emit_req, Conn.upd_req]
    omega
  · rw [Conn.emit_trace, List.mem_append, List.mem_singleton] at hm
    rcases hm with hm | hm
    · exact h.clear s e bs hm
    · cases hm

/-- An empty buffer starts over. -/
lemma restart (h : Ordered c) (he : c.req.bufferStart = c.req.bufferEnd) :
    Ordered (c.upd fun r => { r with bufferStart := 0, bufferEnd := 0 }) := by
  obtain ⟨ch, hrun, hq⟩ := h.chan
  refine ⟨⟨ch, hrun, ?_⟩, le_rfl, Nat.zero_le _, h.clear⟩
  rw [hq, Request.pending, Request.pending, he, Nat.sub_self]
  rfl

/-- A buffer that is thrown away starts over. -/
lemma drop {c' : Conn} (h : Ordered c) {e : Event} (he : wireOp e = [.clear])
    (htrace : c'.trace = c.trace ++ [e]) (hs : c'.req.bufferStart = 0)
    (hend : c'.req.bufferEnd = 0) : Ordered c' := by
  obtain ⟨ch, hrun, -⟩ := h.chan
  refine ⟨⟨{ ch with queue := [] }, ?_, ?_⟩, ?_, ?_, fun s e' bs hm => ?_⟩
  · rw [htrace, wireOps_concat, he, Chan.run_append_of_eq_some hrun]
    rfl
  · rw [Request.pending, hs, hend]
    rfl
  · rw [hs, hend]
  · rw [hend]
    exact Nat.zero_le _
  · rw [htrace, List.mem_append, List.mem_singleton] at hm
    rcases hm with hm | rfl
    · exact h.clear s e' bs hm
    · cases he

/-- A handler writes around an empty buffer. -/
lemma direct (h : Ordered c) (he : c.req.bufferEnd = 0) (bs : Bytes) :
    Ordered (c.emit (.wrote c.req.bufferStart c.req.bufferEnd bs)) := by
  obtain ⟨ch, hrun, hq⟩ := h.chan
  have hempty : ch.queue = [] := by
    rw [hq, Request.pending, he, Nat.zero_sub]
    rfl
  refine ⟨⟨{ ch with sent := ch.sent ++ bs }, ?_, hq⟩, h.start_le, h.end_le,
    fun s e bs' hm => ?_⟩
  · rw [Conn.emit_trace, wireOps_concat, wireOp, Chan.run_append_of_eq_some hrun, Chan.run,
      Chan.step, if_pos hempty]
    rfl
  · rw [Conn.emit_trace, List.mem_append, List.mem_singleton] at hm
    rcases hm with hm | hm
    · exact h.clear s e bs' hm
    · cases hm
      omega

end Ordered

/-! ### Functions that only produce output -/

/-- Events of the buffer alone. -/
def Event.isOutput : Event → Bool
  | .buffered _ | .flushed _ | .dropped | .died | .headed | .promised => true
  | _ => false

/-- What a function that only produces output does. -/
structure Outputs (c c' : Conn) : Prop where
  req : ∃ st ka rs rg buf bs be, c'.req = { c.req with
    status := st, keepalive := ka, responseStatus := rs, ranges := rg
    buffer := buf, bufferStart := bs, bufferEnd := be }
  status : c'.req.status = c.req.status ∨ ReqStatus.done.code ≤ c'.req.status.code
  events : ∃ es, c'.trace = c.trace ++ es ∧ ∀ e ∈ es, e.isOutput = true
  free : c'.free = c.free
  /-- Nothing is stored behind the buffer. -/
  inside : ∀ i, bufferSize < i → c'.req.buffer i = c.req.buffer i
  ordered : Ordered c → Ordered c'

namespace Outputs

variable {c c' c'' : Conn}

lemma refl (c : Conn) : Outputs c c :=
  ⟨⟨_, _, _, _, _, _, _, rfl⟩, Or.inl rfl, ⟨[], by simp⟩, rfl, fun _ _ => rfl, id⟩

lemma trans (h : Outputs c c') (h' : Outputs c' c'') : Outputs c c'' := by
  obtain ⟨st, ka, rs, rg, buf, bs, be, hreq⟩ := h.req
  obtain ⟨st', ka', rs', rg', buf', bs', be', hreq'⟩ := h'.req
  obtain ⟨es, hes, hout⟩ := h.events
  obtain ⟨es', hes', hout'⟩ := h'.events
  refine ⟨⟨st', ka', rs', rg', buf', bs', be', ?_⟩, ?_, ⟨es ++ es', ?_, ?_⟩,
    h'.free.trans h.free, fun i hi => (h'.inside i hi).trans (h.inside i hi),
    h'.ordered ∘ h.ordered⟩
  · rw [hreq', hreq]
  · rcases h'.status with hs | hs
    · rw [hs]
      exact h.status
    · exact Or.inr hs
  · rw [hes', hes, List.append_assoc]
  · intro e he
    rcases List.mem_append.mp he with he | he
    · exact hout e he
    · exact hout' e he

/-- The connection that a function returns beside its result. -/
lemma snd {α : Type} {i : α} (h : Outputs c c') : Outputs c (i, c').2 := h

/-- Changing the fields that output may change, except for the buffer. -/
lemma of_upd {f : Request → Request} (c : Conn)
    (hf : ∀ r : Request, ∃ st ka rs rg, f r = { r with
      status := st, keepalive := ka, responseStatus := rs, ranges := rg })
    (hs : (f c.req).status = c.req.status ∨ ReqStatus.done.code ≤ (f c.req).status.code) :
    Outputs c (c.upd f) := by
  obtain ⟨st, ka, rs, rg, hreq⟩ := hf c.req
  refine ⟨⟨st, ka, rs, rg, _, _, _, hreq⟩, hs, ⟨[], by simp⟩, rfl, fun i _ => ?_, fun h => ?_⟩
  · rw [Conn.upd_req, hreq]
  exact h.congr rfl (by rw [Conn.upd_req, hreq]) (by rw [Conn.upd_req, hreq])
    (by rw [Conn.upd_req, hreq])

/-- One of the buffer's events, with a change to the buffer. -/
lemma of_emit {f : Request → Request} {e : Event} (c : Conn) (he : e.isOutput = true)
    (hf : ∀ r : Request, ∃ st buf bs be, f r = { r with
      status := st, buffer := buf, bufferStart := bs, bufferEnd := be })
    (hs : (f c.req).status = c.req.status ∨ ReqStatus.done.code ≤ (f c.req).status.code)
    (hin : ∀ i, bufferSize < i → (f c.req).buffer i = c.req.buffer i)
    (ho : Ordered c → Ordered ((c.upd f).emit e)) : Outputs c ((c.upd f).emit e) := by
  obtain ⟨st, buf, bs, be, hreq⟩ := hf c.req
  refine ⟨⟨st, _, _, _, buf, bs, be, hreq⟩, hs, ⟨[e], rfl, ?_⟩, rfl, hin, ho⟩
  intro e' he'
  rwa [List.mem_singleton.mp he']

/-! What stays as it is. -/

lemma dataFd (h : Outputs c c') : c'.req.dataFd = c.req.dataFd := by
  obtain ⟨_, _, _, _, _, _, _, hreq⟩ := h.req
  rw [hreq]

lemma postDataFd (h : Outputs c c') : c'.req.postDataFd = c.req.postDataFd := by
  obtain ⟨_, _, _, _, _, _, _, hreq⟩ := h.req
  rw [hreq]

lemma method (h : Outputs c c') : c'.req.method = c.req.method := by
  obtain ⟨_, _, _, _, _, _, _, hreq⟩ := h.req
  rw [hreq]

lemma httpVersion (h : Outputs c c') : c'.req.httpVersion = c.req.httpVersion := by
  obtain ⟨_, _, _, _, _, _, _, hreq⟩ := h.req
  rw [hreq]

lemma logline (h : Outputs c c') : c'.req.logline = c.req.logline := by
  obtain ⟨_, _, _, _, _, _, _, hreq⟩ := h.req
  rw [hreq]

lemma cgiType (h : Outputs c c') : c'.req.cgiType = c.req.cgiType := by
  obtain ⟨_, _, _, _, _, _, _, hreq⟩ := h.req
  rw [hreq]

lemma pathname (h : Outputs c c') : c'.req.pathname = c.req.pathname := by
  obtain ⟨_, _, _, _, _, _, _, hreq⟩ := h.req
  rw [hreq]

end Outputs

lemma ite_outputs {p : Prop} [Decidable p] {c a b : Conn} (h : Outputs c a)
    (h' : Outputs c b) : Outputs c (if p then a else b) := by
  split_ifs
  · exact h
  · exact h'

lemma done_le_dead : ReqStatus.done.code ≤ ReqStatus.dead.code := by decide

/-! ### `buffer.c` -/

lemma setStatus_outputs {s : ReqStatus} (hs : ReqStatus.done.code ≤ s.code) (c : Conn) :
    Outputs c (c.setStatus s) :=
  Outputs.of_upd c (fun _ => ⟨_, _, _, _, rfl⟩) (Or.inr hs)

/-- Recording something that is none of the buffer's. -/
lemma emit_outputs {e : Event} (he : e.isOutput = true) (hwire : wireOp e = []) (c : Conn) :
    Outputs c (c.emit e) :=
  Outputs.of_emit (f := id) c he (fun _ => ⟨_, _, _, _, rfl⟩) (Or.inl rfl) (fun _ _ => rfl)
    fun h => h.emit hwire

lemma die_outputs (c : Conn) : Outputs c c.die :=
  (setStatus_outputs done_le_dead c).trans (emit_outputs rfl rfl _)

lemma note_outputs {e : Event} (he : e.isOutput = true) (hwire : wireOp e = []) (c : Conn) :
    Outputs c (c.note e) := by
  rw [Conn.note]
  split_ifs
  · exact Outputs.refl c
  · exact emit_outputs he hwire c

lemma append_outputs {bs : Bytes} {c : Conn} (hfit : bs.length ≤ bufferSize - c.req.bufferEnd) :
    Outputs c (c.append bs) := by
  refine Outputs.of_emit c rfl (fun _ => ⟨_, _, _, _, rfl⟩) (Or.inl rfl) (fun i hi => ?_)
    fun h => h.append ?_
  · exact if_neg (by omega)
  · have hend := h.end_le
    omega

lemma reqWrite_outputs (msg : Bytes) (c : Conn) : Outputs c (reqWrite msg c) := by
  rw [reqWrite]
  split_ifs with hskip hroom
  · exact Outputs.refl c
  · exact die_outputs c
  · exact append_outputs (by omega)

/-- The escaping loop writes no more than there is room for. -/
lemma length_escapeLoop_le {guardBand : ℕ} {escape : UInt8 → Bytes}
    (hesc : ∀ b, (escape b).length ≤ guardBand) (msg : Bytes) (left : ℕ) :
    (escapeLoop guardBand escape left msg).1.length ≤ left := by
  induction msg generalizing left with
  | nil => exact Nat.zero_le _
  | cons b msg ih =>
      rw [escapeLoop]
      split_ifs with hleft
      · exact Nat.zero_le _
      · have hb := hesc b
        have hrest := ih (left - (escape b).length)
        rw [List.length_append]
        omega

lemma reqWriteEscape_outputs {guardBand : ℕ} {escape : UInt8 → Bytes}
    (hesc : ∀ b, (escape b).length ≤ guardBand) (msg : Bytes) (c : Conn) :
    Outputs c (reqWriteEscape guardBand escape msg c) := by
  have hlen := length_escapeLoop_le hesc msg (bufferSize - c.req.bufferEnd)
  have happend : Outputs c
      (c.append (escapeLoop guardBand escape (bufferSize - c.req.bufferEnd) msg).1) :=
    append_outputs hlen
  rw [reqWriteEscape]
  split_ifs
  · exact happend
  · exact happend.trans (die_outputs _)

/-- So does the loop on a string in the buffer. -/
lemma length_escapeInPlace_le {guardBand : ℕ} {escape : UInt8 → Bytes}
    (hesc : ∀ b, (escape b).length ≤ guardBand) (fuel : ℕ) (m : Mem) (inp dest left : ℕ) :
    (escapeInPlace guardBand escape fuel m inp dest left).1.length ≤ left := by
  induction fuel generalizing m inp dest left with
  | zero => exact Nat.zero_le _
  | succ fuel ih =>
      rw [escapeInPlace]
      split_ifs with hzero hleft
      · exact Nat.zero_le _
      · exact Nat.zero_le _
      · have hb := hesc (m inp)
        have hrest := ih (m.store dest (escape (m inp))) (inp + 1)
          (dest + (escape (m inp)).length) (left - (escape (m inp)).length)
        rw [List.length_append]
        omega

lemma reqWriteEscapeText_outputs {guardBand : ℕ} {escape : UInt8 → Bytes}
    (hesc : ∀ b, (escape b).length ≤ guardBand) (text : Text) (c : Conn) :
    Outputs c (reqWriteEscapeText guardBand escape text c) := by
  cases text with
  | elsewhere msg => exact reqWriteEscape_outputs hesc msg c
  | inBuffer off =>
      have hlen := length_escapeInPlace_le hesc (bufferSize - c.req.bufferEnd + 1) c.req.buffer off
        c.req.bufferEnd (bufferSize - c.req.bufferEnd)
      have happend : Outputs c (c.append (escapeInPlace guardBand escape
          (bufferSize - c.req.bufferEnd + 1) c.req.buffer off c.req.bufferEnd
          (bufferSize - c.req.bufferEnd)).1) := append_outputs hlen
      rw [reqWriteEscapeText]
      split_ifs
      · exact happend
      · exact happend.trans (die_outputs _)

lemma reqWriteEscapeHttp_outputs (msg : Text) (c : Conn) :
    Outputs c (reqWriteEscapeHttp msg c) := by
  refine reqWriteEscapeText_outputs (fun b => ?_) msg c
  rw [escapeHttp]
  split_ifs <;> simp

lemma reqWriteEscapeHtml_outputs (msg : Text) (c : Conn) :
    Outputs c (reqWriteEscapeHtml msg c) := by
  refine reqWriteEscapeText_outputs (fun b => ?_) msg c
  rw [escapeHtml]
  split_ifs <;> simp [str]

lemma setTape_outputs (c : Conn) (t : List WriteResult) : Outputs c { c with tape := t } :=
  ⟨⟨_, _, _, _, _, _, _, rfl⟩, Or.inl rfl, ⟨[], by simp⟩, rfl, fun _ _ => rfl,
    fun h => h.congr rfl rfl rfl rfl⟩

/-- Popping an answer changes the answers that are left, and nothing else. -/
lemma pop_eq (c : Conn) : ∃ t, c.pop.2 = { c with tape := t } := by
  rw [Conn.pop]
  cases c.tape with
  | nil => exact ⟨c.tape, rfl⟩
  | cons r t => exact ⟨t, rfl⟩

/-- A buffer that is thrown away. -/
lemma discard_outputs (c : Conn) :
    Outputs c ((c.upd fun r => { r with bufferStart := 0, bufferEnd := 0 }).emit .dropped) :=
  Outputs.of_emit c rfl (fun _ => ⟨_, _, _, _, rfl⟩) (Or.inl rfl) (fun _ _ => rfl)
    fun h => h.drop rfl rfl rfl rfl

lemma flushDone_outputs (c : Conn) : Outputs c (flushDone c).2 := by
  rw [flushDone]
  simp only
  split_ifs with he
  · exact ⟨⟨_, _, _, _, _, _, _, rfl⟩, Or.inl rfl, ⟨[], by simp⟩, rfl, fun _ _ => rfl,
      fun h => h.restart he⟩
  · exact Outputs.refl c

/-- The number of bytes that `req_flush` offers. -/
lemma bytesToWrite_eq {c : Conn} (h : Ordered c) :
    (c.req.bufferEnd + 2 ^ 32 - c.req.bufferStart) % 2 ^ 32
      = c.req.bufferEnd - c.req.bufferStart := by
  have h₁ := h.start_le
  have h₂ := h.end_le
  rw [bufferSize] at h₂
  omega

lemma reqFlush_outputs (c : Conn) : Outputs c (reqFlush c).2 := by
  rw [reqFlush]
  simp only
  split_ifs with hdone hzero
  · exact Outputs.refl c
  · exact flushDone_outputs c
  · obtain ⟨t, ht⟩ := pop_eq c
    rcases hpop : c.pop with ⟨res, d⟩
    rw [hpop] at ht
    simp only at ht
    subst ht
    have htape := setTape_outputs c t
    cases res with
    | again => exact htape
    | intr =>
        exact htape.trans ((discard_outputs _).trans (die_outputs _))
    | error =>
        exact htape.trans ((discard_outputs _).trans (die_outputs _))
    | accept n =>
        refine htape.trans (Outputs.trans ?_ (flushDone_outputs _))
        refine Outputs.of_emit _ rfl (fun _ => ⟨_, _, _, _, rfl⟩) (Or.inl rfl) (fun _ _ => rfl)
          fun h => ?_
        have hlen := bytesToWrite_eq h
        simp only at hlen
        rw [hlen]
        exact h.flush (min_le_right _ _)

/-! ### `response.c`, `range.c` -/

lemma printContentType_outputs (cfg : Config) (c : Conn) :
    Outputs c (printContentType cfg c) := by
  refine Outputs.trans ?_ (reqWrite_outputs _ _)
  have hname := (reqWrite_outputs (str "Content-Type: ") c).trans
    (reqWrite_outputs (getMimeType cfg c.req.requestUri) _)
  cases cfg.defaultCharset with
  | none => exact hname
  | some charset =>
      simp only
      split_ifs
      · exact hname.trans ((reqWrite_outputs _ _).trans (reqWrite_outputs _ _))
      · exact hname

lemma printContentLength_outputs (c : Conn) : Outputs c (printContentLength c) :=
  (reqWrite_outputs _ _).trans ((reqWrite_outputs _ _).trans (reqWrite_outputs _ _))

lemma printLastModified_outputs (env : Env) (c : Conn) :
    Outputs c (printLastModified env c) :=
  reqWrite_outputs _ _

lemma printKaPhrase_outputs (cfg : Config) (c : Conn) : Outputs c (printKaPhrase cfg c) := by
  rw [printKaPhrase]
  split_ifs
  · exact (reqWrite_outputs _ _).trans ((note_outputs rfl rfl _).trans ((reqWrite_outputs _ _).trans
      ((reqWrite_outputs _ _).trans ((reqWrite_outputs _ _).trans (reqWrite_outputs _ _)))))
  · exact reqWrite_outputs _ _

lemma printHttpHeaders_outputs (cfg : Config) (env : Env) (c : Conn) :
    Outputs c (printHttpHeaders cfg env c) := by
  refine (reqWrite_outputs (str "Date: " ++ env.rfc822 0 ++ crlf) c).trans ?_
  refine Outputs.trans ?_ (printKaPhrase_outputs cfg _)
  refine Outputs.trans ?_ (reqWrite_outputs _ _)
  split_ifs
  · exact Outputs.refl _
  · exact reqWrite_outputs _ _

lemma printContentRange_outputs (c : Conn) : Outputs c (printContentRange c) :=
  (reqWrite_outputs _ _).trans ((reqWrite_outputs _ _).trans ((reqWrite_outputs _ _).trans
    ((reqWrite_outputs _ _).trans ((reqWrite_outputs _ _).trans
      ((reqWrite_outputs _ _).trans (reqWrite_outputs _ _))))))

lemma printPartialContentContinue_outputs (cfg : Config) (c : Conn) :
    Outputs c (printPartialContentContinue cfg c) := by
  refine Outputs.trans ?_ (printContentRange_outputs _)
  refine Outputs.trans ?_ (printContentType_outputs cfg _)
  split_ifs
  · exact reqWrite_outputs _ _
  · exact Outputs.refl _

lemma setResponse_outputs (code : ℕ) (c : Conn) : Outputs c (c.setResponse code) :=
  Outputs.of_upd c (fun _ => ⟨_, _, _, _, rfl⟩) (Or.inl rfl)

lemma squashKa_outputs (c : Conn) : Outputs c c.squashKa :=
  Outputs.of_upd c (fun _ => ⟨_, _, _, _, rfl⟩) (Or.inl rfl)

lemma setRanges_outputs (rg : List Range) (c : Conn) :
    Outputs c (c.upd fun r => { r with ranges := rg }) :=
  Outputs.of_upd c (fun _ => ⟨_, _, _, _, rfl⟩) (Or.inl rfl)

lemma printPartialContentDone_outputs (c : Conn) : Outputs c (printPartialContentDone c) :=
  reqWrite_outputs _ c

lemma completeResponse_outputs (cfg : Config) (c : Conn) :
    Outputs c (completeResponse cfg c).2 := by
  rw [completeResponse]
  have htail : Outputs c (c.upd fun r => { r with ranges := r.ranges.tail }) :=
    Outputs.of_upd c (fun _ => ⟨_, _, _, _, rfl⟩) (Or.inl rfl)
  refine htail.trans ?_
  generalize c.upd _ = c
  split_ifs
  · exact ((printPartialContentContinue_outputs cfg c).trans (reqWrite_outputs _ _)).snd
  · exact ((printPartialContentDone_outputs c).trans
      ((setStatus_outputs (by decide) _).trans (reqFlush_outputs _))).snd
  · exact (setStatus_outputs (by decide) c).snd

lemma statusLine_outputs (cfg : Config) (env : Env) (line : String) (c : Conn) :
    Outputs c (statusLine cfg env line c) :=
  (reqWrite_outputs _ _).trans ((reqWrite_outputs _ _).trans ((note_outputs rfl rfl _).trans
    (printHttpHeaders_outputs cfg env _)))

lemma sendRRequestOk_outputs (cfg : Config) (env : Env) (c : Conn) :
    Outputs c (sendRRequestOk cfg env c) := by
  have hline := (setResponse_outputs 200 c).trans
    (statusLine_outputs cfg env " 200 OK\r\n" _)
  rw [sendRRequestOk]
  simp only
  split_ifs
  · exact setResponse_outputs 200 c
  · exact hline.trans ((printContentLength_outputs _).trans ((printLastModified_outputs env _).trans
      ((printContentType_outputs cfg _).trans (reqWrite_outputs _ _))))
  · exact hline

lemma sendRNoContent_outputs (cfg : Config) (env : Env) (c : Conn) :
    Outputs c (sendRNoContent cfg env c) := by
  have hline := (setResponse_outputs 204 c).trans
    (statusLine_outputs cfg env " 204 NO CONTENT\r\n" _)
  rw [sendRNoContent]
  simp only
  split_ifs
  · exact setResponse_outputs 204 c
  · exact hline.trans (reqWrite_outputs _ _)
  · exact hline

lemma sendRPartialContent_outputs (cfg : Config) (env : Env) (c : Conn) :
    Outputs c (sendRPartialContent cfg env c) := by
  have hline := ((setResponse_outputs 206 c).trans
    (statusLine_outputs cfg env " 206 Partial Content\r\n" _)).trans
    (printLastModified_outputs env _)
  refine Outputs.trans ?_ (reqWrite_outputs _ _)
  refine Outputs.trans ?_ (printPartialContentContinue_outputs cfg _)
  split_ifs
  · exact hline.trans ((reqWrite_outputs _ _).trans (reqWrite_outputs _ _))
  · exact hline.trans ((reqWrite_outputs _ _).trans
      ((reqWrite_outputs _ _).trans (reqWrite_outputs _ _)))

lemma sendRNotModified_outputs (cfg : Config) (env : Env) (c : Conn) :
    Outputs c (sendRNotModified cfg env c) :=
  (squashKa_outputs c).trans ((setResponse_outputs 304 _).trans
    ((statusLine_outputs cfg env _ _).trans ((printContentType_outputs cfg _).trans
      ((reqWrite_outputs _ _).trans (reqFlush_outputs _)))))

/-- A page whose fields and body are output is output. -/
lemma sendRPage_outputs (cfg : Config) (env : Env) (code : ℕ) (line : String)
    {fields body : Conn → Conn} (hfields : ∀ c, Outputs c (fields c))
    (hbody : ∀ c, Outputs c (body c)) (c : Conn) :
    Outputs c (sendRPage cfg env code line fields body c) := by
  have hfirst := (squashKa_outputs c).trans (setResponse_outputs code _)
  have hheader : Outputs c (if (c.squashKa.setResponse code).req.httpVersion = .http09 then
      c.squashKa.setResponse code
    else fields (statusLine cfg env line (c.squashKa.setResponse code))) :=
    ite_outputs hfirst (hfirst.trans ((statusLine_outputs cfg env line _).trans (hfields _)))
  exact (ite_outputs hheader (hheader.trans (hbody _))).trans (reqFlush_outputs _)

lemma htmlField_outputs (c : Conn) : Outputs c (htmlField c) := reqWrite_outputs _ _

lemma uriBody_outputs (before after : String) (c : Conn) : Outputs c (uriBody before after c) :=
  (reqWrite_outputs _ _).trans
    ((reqWriteEscapeHtml_outputs _ _).trans (reqWrite_outputs _ _))

lemma movedBody_outputs (before : String) (url : Text) (c : Conn) :
    Outputs c (movedBody before url c) :=
  (reqWrite_outputs _ _).trans
    ((reqWriteEscapeHtml_outputs _ _).trans (reqWrite_outputs _ _))

lemma movedFields_outputs (url : Text) (c : Conn) :
    Outputs c (movedFields url c) :=
  (reqWrite_outputs _ _).trans
    ((reqWrite_outputs _ _).trans (reqWriteEscapeHttp_outputs _ _))

lemma sendRMovedPerm_outputs (cfg : Config) (env : Env) (url : Bytes) (c : Conn) :
    Outputs c (sendRMovedPerm cfg env url c) :=
  sendRPage_outputs cfg env _ _
    (fun _ => (movedFields_outputs _ _).trans (reqWrite_outputs _ _)) (movedBody_outputs _ _) c

lemma sendRMovedTemp_outputs (cfg : Config) (env : Env) (url : Text)
    (moreHdr : Request → Bytes) (c : Conn) : Outputs c (sendRMovedTemp cfg env url moreHdr c) :=
  sendRPage_outputs cfg env _ _
    (fun _ => (movedFields_outputs _ _).trans ((reqWrite_outputs _ _).trans
      ((reqWrite_outputs _ _).trans (reqWrite_outputs _ _)))) (movedBody_outputs _ _) c

lemma sendRBadRequest_outputs (cfg : Config) (env : Env) (c : Conn) :
    Outputs c (sendRBadRequest cfg env c) :=
  sendRPage_outputs cfg env _ _ htmlField_outputs (reqWrite_outputs _) c

lemma sendRForbidden_outputs (cfg : Config) (env : Env) (c : Conn) :
    Outputs c (sendRForbidden cfg env c) :=
  sendRPage_outputs cfg env _ _ htmlField_outputs (uriBody_outputs _ _) c

lemma sendRNotFound_outputs (cfg : Config) (env : Env) (c : Conn) :
    Outputs c (sendRNotFound cfg env c) :=
  sendRPage_outputs cfg env _ _ htmlField_outputs (uriBody_outputs _ _) c

lemma lengthField_outputs (body : Bytes) (c : Conn) : Outputs c (lengthField body c) :=
  (reqWrite_outputs _ _).trans (reqWrite_outputs _ _)

lemma sendRInvalidRange_outputs (cfg : Config) (env : Env) (c : Conn) :
    Outputs c (sendRInvalidRange cfg env c) :=
  sendRPage_outputs cfg env _ _
    (fun _ => (lengthField_outputs _ _).trans (reqWrite_outputs _ _)) (reqWrite_outputs _) c

lemma sendRError_outputs (cfg : Config) (env : Env) (c : Conn) :
    Outputs c (sendRError cfg env c) :=
  sendRPage_outputs cfg env _ _ htmlField_outputs (reqWrite_outputs _) c

lemma sendRNotImplemented_outputs (cfg : Config) (env : Env) (c : Conn) :
    Outputs c (sendRNotImplemented cfg env c) := by
  have hfirst := (squashKa_outputs c).trans (setResponse_outputs 501 _)
  refine Outputs.trans (Outputs.trans ?_ (reqWrite_outputs _ _)) (reqFlush_outputs _)
  exact ite_outputs hfirst (hfirst.trans
    ((statusLine_outputs cfg env _ _).trans (htmlField_outputs _)))

lemma sendRBadGateway_outputs (cfg : Config) (env : Env) (c : Conn) :
    Outputs c (sendRBadGateway cfg env c) :=
  sendRPage_outputs cfg env _ _ htmlField_outputs (reqWrite_outputs _) c

lemma sendRServiceUnavailable_outputs (cfg : Config) (env : Env) (c : Conn) :
    Outputs c (sendRServiceUnavailable cfg env c) :=
  sendRPage_outputs cfg env _ _ (fun _ => (lengthField_outputs _ _).trans
    ((reqWrite_outputs _ _).trans (htmlField_outputs _))) (reqWrite_outputs _) c

lemma rangesFixup_outputs (cfg : Config) (env : Env) (c : Conn) :
    Outputs c (rangesFixup cfg env c).2 := by
  unfold rangesFixup
  extract_lets ranges d
  split_ifs
  · exact ((setRanges_outputs _ c).trans (sendRInvalidRange_outputs cfg env _)).snd
  · exact (setRanges_outputs _ c).snd

end Yabwf
